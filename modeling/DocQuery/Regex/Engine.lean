namespace DocQuery.Regex

/-- An engine compiles the texts of patterns, or tells what is wrong with them, and searches
texts for a match anywhere. -/
class Engine where
  Program : Type
  compile : String → Except String Program
  isMatch : Program → String → Bool

end DocQuery.Regex
