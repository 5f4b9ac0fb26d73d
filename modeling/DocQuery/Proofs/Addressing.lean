import DocQuery.Proofs.Separators
import DocQuery.Settings.Basic

namespace DocQuery.Settings

def SameTarget (s t : Settings) : Prop :=
  s.host = t.host ∧ s.port = t.port ∧ s.database = t.database ∧ s.credentials = t.credentials

inductive Part where
  | user
  | password
  | host
  deriving DecidableEq

def part? (s : Settings) : Part → Option String
  | .user => s.credentials.map Prod.fst
  | .password => s.credentials.map Prod.snd
  | .host => some s.host

def reserved : List (Part × Char) :=
  [(.user, ':'), (.password, '/'), (.host, '/'), (.host, '@')]

def Avoids (s : Settings) (r : Part × Char) : Prop :=
  ∀ text ∈ s.part? r.1, r.2 ∉ text.toList

/-- In no part a separator is taken for the end of it. -/
def Separated (s : Settings) : Prop := ∀ r ∈ reserved, s.Avoids r

def ofParts (credentials : Option (String × String)) (host : String) (port : UInt16)
    (database : String) : Settings :=
  { host, port, database
    username := credentials.map Prod.fst
    password := credentials.map Prod.snd
    applicationName := "application" }

instance (s t : Settings) : Decidable (s.SameTarget t) :=
  inferInstanceAs (Decidable (_ ∧ _))

instance (s : Settings) (r : Part × Char) : Decidable (s.Avoids r) :=
  inferInstanceAs (Decidable (∀ text ∈ s.part? r.1, r.2 ∉ text.toList))

instance (s : Settings) : Decidable s.Separated :=
  inferInstanceAs (Decidable (∀ r ∈ reserved, s.Avoids r))

def authority (s : Settings) : List Char :=
  match s.credentials with
  | some (user, password) => user.toList ++ ':' :: (password.toList ++ '@' :: s.host.toList)
  | none => s.host.toList

def portText (s : Settings) : List Char := Nat.toDigits 10 s.port.toNat

/-- The part in front of the port of some settings goes on where others have their database. -/
def GoesOn (s t : Settings) : Prop :=
  ∃ u, t.authority = s.authority ++ ':' :: (s.portText ++ '/' :: u) ∧
    s.database.toList = u ++ ':' :: (t.portText ++ '/' :: t.database.toList)

theorem toList_uri (s : Settings) : s.uri.toList =
    "mongodb://".toList ++
      (s.authority ++ ':' :: (s.portText ++ '/' :: s.database.toList)) := by
  unfold uri authority
  cases s.credentials with
  | none => simp [address, portText]
  | some c => simp [address, portText]

theorem not_mem_portText {c : Char} (h : ¬ c.isDigit) (s : Settings) : c ∉ s.portText :=
  fun hc => h (Nat.isDigit_of_mem_toDigits (by decide) (by decide) hc)

theorem port_eq_of_text {s t : Settings} (h : s.portText = t.portText) : s.port = t.port := by
  have hport := congrArg (Nat.ofDigitChars 10 · 0) h
  simp only [portText, Nat.ofDigitChars_ten_toDigits] at hport
  exact UInt16.toNat_inj.1 hport

theorem uri_eq_iff (s t : Settings) : s.uri = t.uri ↔
    (s.authority = t.authority ∧ s.port = t.port ∧ s.database = t.database) ∨
      s.GoesOn t ∨ t.GoesOn s := by
  -- settings share a URI exactly if they agree in all parts, or if those of one go on
  rw [← String.toList_inj, toList_uri, toList_uri, List.append_cancel_left_eq]
  constructor
  · intro h
    obtain ⟨hauthority, hrest⟩ | ⟨u, hu, hrest⟩ | ⟨u, hu, hrest⟩ := readings h
    · have hslash := fun s => not_mem_portText (c := '/') (by decide) s
      obtain ⟨hport, hdatabase⟩ := eq_of_first (hslash s) (hslash t) hrest
      exact .inl ⟨hauthority, port_eq_of_text hport, String.toList_inj.1 hdatabase⟩
    · have hcolon := not_mem_portText (c := ':') (by decide) s
      obtain ⟨v, rfl, hv⟩ := goes_on (by decide) hcolon hrest
      exact .inr (.inl ⟨v, hu, hv⟩)
    · have hcolon := not_mem_portText (c := ':') (by decide) t
      obtain ⟨v, rfl, hv⟩ := goes_on (by decide) hcolon hrest
      exact .inr (.inr ⟨v, hu, hv⟩)
  · rintro (⟨hauthority, hport, hdatabase⟩ | ⟨u, hu, hrest⟩ | ⟨u, hu, hrest⟩)
    · rw [hauthority, portText, hport, hdatabase, portText]
    · simp [hu, hrest]
    · simp [hu, hrest]

theorem Separated.host {s : Settings} (h : s.Separated) :
    '/' ∉ s.host.toList ∧ '@' ∉ s.host.toList :=
  ⟨h (.host, '/') (by decide) s.host rfl, h (.host, '@') (by decide) s.host rfl⟩

theorem Separated.credentials {s : Settings} (h : s.Separated) {user password : String}
    (hs : s.credentials = some (user, password)) :
    ':' ∉ user.toList ∧ '/' ∉ password.toList := by
  constructor
  · exact h (.user, ':') (by decide) user (by simp [part?, hs])
  · exact h (.password, '/') (by decide) password (by simp [part?, hs])

theorem authority_of_some {s : Settings} {user password : String}
    (h : s.credentials = some (user, password)) :
    s.authority = user.toList ++ ':' :: (password.toList ++ '@' :: s.host.toList) := by
  rw [authority, h]

theorem authority_of_none {s : Settings} (h : s.credentials = none) :
    s.authority = s.host.toList := by
  rw [authority, h]

theorem mem_authority_iff {s : Settings} (hs : s.Separated) :
    '@' ∈ s.authority ↔ s.credentials.isSome := by
  cases hc : s.credentials with
  | none => simp [authority_of_none hc, hs.host.2]
  | some c => simp [authority_of_some hc]

theorem parts_of_authority {s t : Settings} (hs : s.Separated) (ht : t.Separated)
    (h : s.authority = t.authority) : s.host = t.host ∧ s.credentials = t.credentials := by
  have hsome := mem_authority_iff hs
  rw [h, mem_authority_iff ht] at hsome
  cases hsc : s.credentials with
  | none =>
    have htc : t.credentials = none := by simpa [hsc] using hsome
    rw [authority_of_none hsc, authority_of_none htc] at h
    exact ⟨String.toList_inj.1 h, htc.symm⟩
  | some c =>
    obtain ⟨d, htc⟩ := Option.isSome_iff_exists.1 (hsome.2 (by rw [hsc]; rfl))
    rw [authority_of_some hsc, authority_of_some htc] at h
    obtain ⟨huser, hrest⟩ := eq_of_first (hs.credentials hsc).1 (ht.credentials htc).1 h
    obtain ⟨hpassword, hhost⟩ := eq_of_last hs.host.2 ht.host.2 hrest
    refine ⟨String.toList_inj.1 hhost, ?_⟩
    rw [htc, Prod.ext (String.toList_inj.1 huser) (String.toList_inj.1 hpassword)]

theorem not_goesOn {s t : Settings} (ht : t.Separated) : ¬ s.GoesOn t := by
  rintro ⟨u, hu, -⟩
  cases htc : t.credentials with
  | none =>
    have hslash := ht.host.1
    rw [← authority_of_none htc, hu] at hslash
    simp at hslash
  | some c =>
    obtain ⟨huser, hpassword⟩ := ht.credentials htc
    have hslash : '/' ∉ c.2.toList ++ '@' :: t.host.toList := by simp [hpassword, ht.host.1]
    rw [authority_of_some htc] at hu
    -- the colon behind the user is in front of the slash
    obtain ⟨-, hrest⟩ | ⟨v, -, hrest⟩ | ⟨v, hv, -⟩ := readings hu
    · simp [hrest] at hslash
    · simp [hrest] at hslash
    · simp [hv] at huser

/-- Settings of which the parts avoid the reserved separators share a URI only if they have the
same host, port, database and credentials.  This takes all of the reserved separators. -/
theorem sameTarget_of_uri :
    (∀ s t : Settings, s.Separated → t.Separated → s.uri = t.uri → s.SameTarget t) ∧
    ∀ r ∈ reserved, ∃ s t : Settings, s.fault? = none ∧ t.fault? = none ∧
      (∀ q ∈ reserved, q ≠ r → s.Avoids q ∧ t.Avoids q) ∧ s.uri = t.uri ∧ ¬ s.SameTarget t := by
  constructor
  · intro s t hs ht h
    obtain ⟨hauthority, hport, hdatabase⟩ | hgoes | hgoes := (uri_eq_iff s t).1 h
    · obtain ⟨hhost, hcredentials⟩ := parts_of_authority hs ht hauthority
      exact ⟨hhost, hport, hdatabase, hcredentials⟩
    · exact absurd hgoes (not_goesOn ht)
    · exact absurd hgoes (not_goesOn hs)
  · simp only [reserved, List.forall_mem_cons]
    refine ⟨?_, ?_, ?_, ?_, List.forall_mem_nil _⟩
    · exact ⟨ofParts (some ("a", "b:c")) "h" 1 "d", ofParts (some ("a:b", "c")) "h" 1 "d",
        by decide⟩
    · exact ⟨ofParts (some ("a", "1/b")) "h" 2 "d", ofParts none "a" 1 "b@h:2/d", by decide⟩
    · exact ⟨ofParts none "a:1/b" 2 "d", ofParts none "a" 1 "b:2/d", by decide⟩
    · exact ⟨ofParts none "a:b@h" 1 "d", ofParts (some ("a", "b")) "h" 1 "d", by decide⟩

theorem sameTarget_of_uri_freeText :
    let s := ofParts (some ("a/b@c", "p:q@r")) "::1" 27017 "x:1/y@z"
    let t := { s with applicationName := "other" }
    s.Separated ∧ t.Separated ∧ s.uri = t.uri ∧ s.SameTarget t := by
  intro s t
  have hs : s.Separated := by decide
  have ht : t.Separated := by decide
  exact ⟨hs, ht, rfl, sameTarget_of_uri.1 s t hs ht rfl⟩

theorem uri_ambiguous :
    let early := ofLayer { username := some "a", password := some "b:c" }
    let late := ofLayer { username := some "a:b", password := some "c" }
    early.fault? = none ∧ late.fault? = none ∧ early.uri = late.uri ∧
      early.credentials ≠ late.credentials := by
  decide

end DocQuery.Settings
