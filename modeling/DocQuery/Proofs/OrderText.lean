import DocQuery.Proofs.Indexing
import DocQuery.Proofs.KeyParts

namespace DocQuery

namespace Unicode

theorem forall_isLower {P : Char → Prop} (h : ∀ n < 123, 97 ≤ n → P (Char.ofNat n)) {c : Char}
    (hc : c.isLower) : P c := by
  have hletter : 97 ≤ c.toNat ∧ c.toNat ≤ 122 := by
    obtain ⟨hfirst, hlast⟩ := (Bool.and_eq_true _ _).mp hc
    exact ⟨of_decide_eq_true hfirst, of_decide_eq_true hlast⟩
  have hc := h c.toNat (by omega) hletter.1
  rwa [Char.ofNat_toNat] at hc

theorem lowercase_toUpper {c : Char} (h : c.isLower) : lowercase c.toUpper = [c] :=
  forall_isLower (P := fun c => lowercase c.toUpper = [c]) (by decide +kernel) h

theorem not_isBlank_of_isLower {c : Char} (h : c.isLower) : ¬ isBlank c :=
  forall_isLower (P := fun c => ¬ isBlank c) (by decide +kernel) h

end Unicode

namespace KeyList

def capitalized : List Char → List Char
  | [] => []
  | c :: s => c.toUpper :: s

/-- A field that key lists can name: it begins with a small letter and does not end with white
space, and no connective is in it once it is capitalized. -/
structure Nameable (field : List Char) : Prop where
  begins : ∃ c ∈ field.head?, c.isLower
  ends : ∀ c ∈ field.getLast?, ¬ Unicode.isBlank c
  unbroken : Unbroken (capitalized field)

theorem nameable_iff {field : List Char} : Nameable field ↔
    field.head?.any Char.isLower ∧ (field.getLast?.all fun c => ¬ Unicode.isBlank c) ∧
      Unbroken (capitalized field) := by
  rw [Option.any_eq_true, Option.all_eq_true]
  simp only [decide_eq_true_eq]
  exact ⟨fun h => ⟨h.begins, h.ends, h.unbroken⟩, fun ⟨hb, he, hu⟩ => ⟨hb, he, hu⟩⟩

instance (field : List Char) : Decidable (Nameable field) := decidable_of_iff' _ nameable_iff

end KeyList

namespace SortKey

open KeyList (Key Nameable Unbroken capitalized joined connectives keyParts listText)

def marked (k : SortKey) (name : List Char) : List Char :=
  if k.descending then '-' :: name else name

def written (k : SortKey) : List Char := k.marked (capitalized k.field.toList)

def read (k : SortKey) : Key := ⟨k.descending, k.field.toList⟩

section

variable {k : SortKey} (h : Nameable k.field.toList)

include h

theorem exists_lower : ∃ c s, k.field.toList = c :: s ∧ c.isLower := by
  obtain ⟨c, hc, hlower⟩ := h.begins
  obtain ⟨s, hs⟩ := List.head?_eq_some_iff.1 hc
  exact ⟨c, s, hs, hlower⟩

theorem unbroken_written : Unbroken k.written := by
  rw [written, marked]
  split
  · exact h.unbroken.cons (by decide)
  · exact h.unbroken

theorem ofPart?_written : Key.ofPart? k.written = some k.read := by
  obtain ⟨c, s, hs, hlower⟩ := exists_lower h
  have hname : Unicode.lowercase c.toUpper ++ s = k.field.toList := by
    rw [Unicode.lowercase_toUpper hlower, hs]
    rfl
  have hletter : c.toUpper ≠ '-' := by
    intro hdash
    have hc := Unicode.lowercase_toUpper hlower
    rw [hdash] at hc
    cases hc
    contradiction
  rw [written, marked, read, hs, capitalized]
  split
  · next hdescending => rw [Key.ofPart?_dash, hname, hdescending, hs]
  · next hascending =>
    rw [Key.ofPart?_cons hletter, hname, Bool.eq_false_iff.2 hascending, hs]

theorem trim_field : Unicode.trim k.field.toList = k.field.toList := by
  obtain ⟨c, hc, hlower⟩ := h.begins
  refine Unicode.trim_eq_self (fun d hd => ?_) h.ends
  obtain rfl : c = d := Option.some.inj (hc.symm.trans hd)
  exact Unicode.not_isBlank_of_isLower hlower

theorem toField_read : k.read.toField = k.toField := by
  have hfield : String.ofList (Unicode.trim k.field.toList) = k.field := by
    rw [trim_field h, String.ofList_toList]
  exact congrArg (·, Json.int (if k.descending then -1 else 1)) hfield

theorem written_ne_nil : k.written ≠ [] := by
  intro hnil
  have hread := ofPart?_written h
  rw [hnil] at hread
  contradiction

end

theorem keyParts_written {ks : List SortKey} (hne : ks ≠ [])
    (h : ∀ k ∈ ks, Nameable k.field.toList) (n : Nat) :
    keyParts (joined (ks.map written) ++ connectives n) = ks.map written := by
  obtain ⟨k, ks, rfl⟩ := List.exists_cons_of_ne_nil hne
  rw [List.map_cons]
  apply KeyList.keyParts_joined
  · rw [← List.map_cons, List.forall_mem_map]
    exact fun l hl => unbroken_written (h l hl)
  · intro p hp
    obtain ⟨l, hl, rfl⟩ := List.mem_map.1 (List.mem_of_getLast? hp)
    exact written_ne_nil (h l (List.mem_cons_of_mem k hl))

theorem keys_written {ks : List SortKey} (hne : ks ≠ [])
    (h : ∀ k ∈ ks, Nameable k.field.toList) (n : Nat) :
    KeyList.keys (listText (joined (ks.map written) ++ connectives n)) = .ok (ks.map read) := by
  have hkeys : KeyList.keysOf (ks.map written) = some (ks.map read) := by
    rw [KeyList.keysOf_eq_some, List.map_map, List.map_map]
    exact List.map_congr_left fun k hk => ofPart?_written (h k hk)
  rw [KeyList.keys_listText, keyParts_written hne h, hkeys]

theorem orderFields_read {ks : List SortKey} (hdistinct : (ks.map field).Nodup)
    (h : ∀ k ∈ ks, Nameable k.field.toList) :
    KeyList.orderFields (ks.map read) = ks.map toField := by
  have hfields : (ks.map read).map Key.toField = ks.map toField := by
    rw [List.map_map]
    exact List.map_congr_left fun k hk => toField_read (h k hk)
  rw [KeyList.orderFields_eq, hfields, Fields.ofList_of_nodup]
  rwa [Fields.keys, List.map_map]

/-- The fields of an order, written as a key list with any number of connectives behind, are read
as these keys and make this order. -/
theorem orderDocument_written {ks : List SortKey} (hne : ks ≠ [])
    (hdistinct : (ks.map field).Nodup) (h : ∀ k ∈ ks, Nameable k.field.toList) (n : Nat) :
    let input := listText (joined (ks.map written) ++ connectives n)
    (KeyList.keys input).map (List.map Key.text) =
        .ok (ks.map fun k => k.marked k.field.toList) ∧
      KeyList.orderDocument input = .ok (toOrder ks) := by
  intro input
  have hkeys : KeyList.keys input = .ok (ks.map read) := keys_written hne h n
  constructor
  · rw [hkeys]
    refine congrArg Except.ok ?_
    rw [List.map_map]
    rfl
  · rw [KeyList.orderDocument, hkeys, Except.map, orderFields_read hdistinct h, toOrder]

def entangledKeys : List SortKey :=
  [⟨"brandA", false⟩, ⟨"an", true⟩, ⟨"nd", false⟩, ⟨"handA-n", true⟩, ⟨"d", false⟩]

theorem orderDocument_written_entangled :
    (entangledKeys ≠ [] ∧ (entangledKeys.map field).Nodup ∧
      ∀ k ∈ entangledKeys, Nameable k.field.toList) ∧
    listText (joined (entangledKeys.map written) ++ connectives 2) =
      "byBrandAAnd-AnAndNdAnd-HandA-nAndDAndAnd" ∧
    (KeyList.keys "byBrandAAnd-AnAndNdAnd-HandA-nAndDAndAnd").map (List.map Key.text) =
      .ok ["brandA".toList, "-an".toList, "nd".toList, "-handA-n".toList, "d".toList] ∧
    KeyList.orderDocument "byBrandAAnd-AnAndNdAnd-HandA-nAndDAndAnd" =
      .ok (toOrder entangledKeys) := by
  have hkeys : entangledKeys ≠ [] ∧ (entangledKeys.map field).Nodup ∧
      ∀ k ∈ entangledKeys, Nameable k.field.toList := by decide +kernel
  have htext : listText (joined (entangledKeys.map written) ++ connectives 2) =
      "byBrandAAnd-AnAndNdAnd-HandA-nAndDAndAnd" := by decide +kernel
  have hwritten := orderDocument_written hkeys.1 hkeys.2.1 hkeys.2.2 2
  simp only [htext] at hwritten
  exact ⟨hkeys, htext, hwritten⟩

end SortKey

end DocQuery
