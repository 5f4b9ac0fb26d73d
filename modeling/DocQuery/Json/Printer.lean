import DocQuery.Json.Basic

namespace DocQuery.Json

def escape (c : Char) : List Char :=
  match c with
  | '"' => ['\\', '"']
  | '\\' => ['\\', '\\']
  | '\n' => ['\\', 'n']
  | '\r' => ['\\', 'r']
  | '\t' => ['\\', 't']
  | '\x08' => ['\\', 'b']
  | '\x0c' => ['\\', 'f']
  | c =>
    if c.toNat < 0x20 then
      '\\' :: 'u' :: '0' :: '0' :: Nat.digitChar (c.toNat / 16) :: [Nat.digitChar (c.toNat % 16)]
    else [c]

def quote (s : String) : String :=
  String.ofList ('"' :: (s.toList.flatMap escape ++ ['"']))

mutual

def text : Json → String
  | null => "null"
  | bool b => if b then "true" else "false"
  | number n => n.text
  | string s => quote s
  | array xs => "[" ++ ",".intercalate (itemTexts xs) ++ "]"
  | object fs => "\x7b" ++ ",".intercalate (fieldTexts fs) ++ "\x7d"

def itemTexts : List Json → List String
  | [] => []
  | x :: xs => text x :: itemTexts xs

def fieldTexts : List (String × Json) → List String
  | [] => []
  | (k, v) :: fs => (quote k ++ ":" ++ text v) :: fieldTexts fs

end

def block (opening closing indent : String) (lines : List String) : String :=
  if lines.isEmpty then opening ++ closing
  else
    opening ++ "\n" ++ ",\n".intercalate (lines.map ((indent ++ "  ") ++ ·)) ++
      "\n" ++ indent ++ closing

mutual

def indented (indent : String) : Json → String
  | array xs => block "[" "]" indent (indentedItems (indent ++ "  ") xs)
  | object fs => block "\x7b" "\x7d" indent (indentedFields (indent ++ "  ") fs)
  | null => "null"
  | bool b => if b then "true" else "false"
  | number n => n.text
  | string s => quote s

def indentedItems (indent : String) : List Json → List String
  | [] => []
  | x :: xs => indented indent x :: indentedItems indent xs

def indentedFields (indent : String) : List (String × Json) → List String
  | [] => []
  | (k, v) :: fs => (quote k ++ ": " ++ indented indent v) :: indentedFields indent fs

end

def pretty (v : Json) : String := indented "" v

end DocQuery.Json
