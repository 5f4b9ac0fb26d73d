import DocQuery.Json.Path

namespace DocQuery.Json

theorem segments_eq_splitOn (s : List Char) : segments s = s.splitOn '.' := by
  induction s with
  | nil => rfl
  | cons c s ih =>
    obtain ⟨p, ps, hs⟩ := List.exists_cons_of_ne_nil (List.splitOn_ne_nil '.' s)
    rw [segments, ih, List.splitOn_cons_eq_if_modifyHead, hs, List.modifyHead_cons]
    simp only [beq_iff_eq]

theorem segments_ne_nil (s : List Char) : segments s ≠ [] := by
  rw [segments_eq_splitOn]
  exact List.splitOn_ne_nil '.' s

theorem segments_of_not_mem {s : List Char} (h : '.' ∉ s) : segments s = [s] := by
  rw [segments_eq_splitOn, List.splitOn_eq_singleton h]

theorem segments_append_cons (s t : List Char) :
    segments (s ++ '.' :: t) = segments s ++ segments t := by
  -- nothing is lost at a dot: if it stands at an end, there is an empty part beside it
  simp only [segments_eq_splitOn, List.splitOn_append_cons_self]

theorem descend_append (ks ls : List String) (v : Json) :
    descend (ks ++ ls) v = (descend ks v).bind (descend ls) := by
  induction ks generalizing v with
  | nil => rfl
  | cons k ks ih =>
    rw [List.cons_append, descend, descend, Option.bind_assoc]
    congr 1
    funext w
    exact ih w

theorem at?_of_not_mem {key : String} (h : '.' ∉ key.toList) (v : Json) :
    v.at? key = v.get? key := by
  rw [at?, segments_of_not_mem h, List.map_singleton, String.ofList_toList, descend]
  exact Option.bind_fun_some (v.get? key)

theorem at?_append (v : Json) (p q : String) :
    v.at? (p ++ "." ++ q) = (v.at? p).bind (·.at? q) := by
  have hdot : (p ++ "." ++ q).toList = p.toList ++ '.' :: q.toList := by simp
  rw [at?, hdot, segments_append_cons, List.map_append, descend_append]
  rfl

theorem at?_of_fieldless {v : Json} (h : ∀ key, v.get? key = none) (path : String) :
    v.at? path = none := by
  obtain ⟨k, ks, hk⟩ := List.exists_cons_of_ne_nil (segments_ne_nil path.toList)
  rw [at?, hk, List.map_cons, descend, h, Option.bind_none]

theorem get?_of_not_object {v : Json} (h : ∀ fs, v ≠ .object fs) (key : String) :
    v.get? key = none := by
  cases v with
  | object fs => exact absurd rfl (h fs)
  | _ => rfl

/-- A path without a dot leads to the field of that name.  Two paths with a dot between them lead
where the second one leads from the value at the first, and nowhere if there is no value at the
first or one that is not an object. -/
theorem at?_dotted (document : Json) :
    (∀ key : String, '.' ∉ key.toList → document.at? key = document.get? key) ∧
    ∀ p q : String,
      document.at? (p ++ "." ++ q) = (document.at? p).bind (·.at? q) ∧
      ((∀ fs, document.at? p ≠ some (.object fs)) → document.at? (p ++ "." ++ q) = none) := by
  refine ⟨fun key hkey => at?_of_not_mem hkey document, fun p q => ⟨at?_append document p q, ?_⟩⟩
  intro hp
  rw [at?_append, Option.bind_eq_none_iff]
  intro v hv
  have hobject : ∀ fs, v ≠ .object fs := by
    rintro fs rfl
    exact hp fs hv
  exact at?_of_fieldless (get?_of_not_object hobject) q

def unnamedDocument : Json :=
  object [("a", object [("", object [("b", int 1)]), ("c", array [int 2, null])])]

theorem at?_dotted_unnamed :
    ('.' ∉ "a".toList ∧ unnamedDocument.at? "a" = unnamedDocument.get? "a") ∧
    unnamedDocument.at? ("a" ++ "." ++ ".b") = some (int 1) ∧
    (∀ fs, unnamedDocument.at? "a.c" ≠ some (.object fs)) ∧
    unnamedDocument.at? ("a.c" ++ "." ++ "0") = none := by
  obtain ⟨hkeys, hpaths⟩ := at?_dotted unnamedDocument
  have hkey : '.' ∉ "a".toList := by decide
  have harray : ∀ fs, unnamedDocument.at? "a.c" ≠ some (.object fs) := by
    intro fs h
    have hat : unnamedDocument.at? "a.c" = some (array [int 2, null]) := rfl
    rw [hat] at h
    cases h
  refine ⟨⟨hkey, hkeys "a" hkey⟩, ?_, harray, (hpaths "a.c" "0").2 harray⟩
  rw [(hpaths "a" ".b").1]
  rfl

end DocQuery.Json
