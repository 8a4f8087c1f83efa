import LiveDocs.Template
import Mathlib.Data.List.Basic

/-!
# Placeholders of strings

A token is an opening, a key of word characters that is not empty, and a closing brace. A closing
brace is no word character, so where a token begins there is only one, and the scan for the first
place where one begins finds the leftmost token. A string with a token is templated with the key of
its leftmost one, and resolving it puts what was exported into the place of that token only. Main
statements: `findPlaceholder_eq_some_iff`, the scan finds the leftmost token;
`findPlaceholder_eq_none_iff`, it finds one if there is any; `Substitution.ofValue_string_iff`.
-/

namespace LiveDocs

/-! ### Tokens -/

/-- The placeholder with its surroundings makes up the text, and its key is one: it is not empty and
consists of word characters. -/
structure Placeholder.Occurs (p : Placeholder) (text : List Char) : Prop where
  toList_eq : p.toList = text
  key_ne_nil : p.key ≠ []
  isWordChar_of_mem : ∀ c ∈ p.key, Text.isWordChar c = true

/-- No placeholder of the text has less before it. -/
structure Placeholder.IsFirst (p : Placeholder) (text : List Char) : Prop extends p.Occurs text where
  leftmost : ∀ q : Placeholder, q.Occurs text → p.before.length ≤ q.before.length

theorem Text.isWordChar_closing : isWordChar '}' = false := by decide +kernel

/-- A token begins a text if and only if the text has a placeholder with nothing before it. -/
theorem placeholderAt_eq_some_iff {text key after : List Char} :
    placeholderAt text = some (key, after) ↔ (⟨[], key, after⟩ : Placeholder).Occurs text := by
  constructor
  · intro h
    obtain ⟨htext, hne, hword⟩ := eq_of_placeholderAt h
    exact ⟨htext.symm, hne, hword⟩
  · rintro ⟨htext, hne, hword⟩
    -- the key ends where the word characters end, at the closing brace
    have hinside : text = placeholderOpening ++ (key ++ '}' :: after) := by
      rw [← htext, Placeholder.toList, List.nil_append, List.append_assoc]
    have hopens : placeholderOpening.isPrefixOf text = true :=
      List.isPrefixOf_iff_prefix.2 ⟨_, hinside.symm⟩
    have hdrop : text.drop placeholderOpening.length = key ++ '}' :: after := by
      rw [hinside, List.drop_left]
    have hclosing : ¬ Text.isWordChar '}' = true := by
      rw [Text.isWordChar_closing]
      exact Bool.false_ne_true
    have hkey : (key ++ '}' :: after).takeWhile Text.isWordChar = key := by
      rw [List.takeWhile_append_of_pos hword, List.takeWhile_cons_of_neg hclosing,
        List.append_nil]
    have hafter : (key ++ '}' :: after).dropWhile Text.isWordChar = '}' :: after := by
      rw [List.dropWhile_append_of_pos hword, List.dropWhile_cons_of_neg hclosing]
    have hnonempty : ¬ key.isEmpty = true := by
      rw [List.isEmpty_iff]
      exact hne
    rw [placeholderAt, if_pos hopens]
    simp only [hdrop, hkey, hafter, if_neg hnonempty]

namespace Placeholder

variable {p q : Placeholder} {text : List Char} {c : Char}

/-- A character in front moves a placeholder along with what is before it. -/
theorem occurs_cons_iff {before key after : List Char} :
    (⟨c :: before, key, after⟩ : Placeholder).Occurs (c :: text) ↔
      (⟨before, key, after⟩ : Placeholder).Occurs text := by
  have htoList : (⟨c :: before, key, after⟩ : Placeholder).toList =
      c :: (⟨before, key, after⟩ : Placeholder).toList := rfl
  constructor
  · rintro ⟨htext, hne, hword⟩
    rw [htoList] at htext
    exact ⟨(List.cons.inj htext).2, hne, hword⟩
  · rintro ⟨htext, hne, hword⟩
    refine ⟨?_, hne, hword⟩
    rw [htoList, htext]

/-- A placeholder begins a text, or it lies in what follows the first character. -/
theorem Occurs.cases (h : p.Occurs (c :: text)) :
    p.before = [] ∨ ∃ before, p.before = c :: before ∧
      (⟨before, p.key, p.after⟩ : Placeholder).Occurs text := by
  obtain ⟨before, key, after⟩ := p
  rcases before with - | ⟨c', before⟩
  · exact .inl rfl
  · obtain rfl : c' = c := (List.cons.inj h.toList_eq).1
    exact .inr ⟨before, rfl, occurs_cons_iff.1 h⟩

/-- Two placeholders with nothing before them are the same one. -/
theorem Occurs.eq_of_before_nil (hp : p.Occurs text) (hq : q.Occurs text) (hbefore : p.before = [])
    (hbefore' : q.before = []) : p = q := by
  obtain ⟨before, key, after⟩ := p
  obtain ⟨before', key', after'⟩ := q
  obtain rfl : before = [] := hbefore
  obtain rfl : before' = [] := hbefore'
  have hat := placeholderAt_eq_some_iff.2 hp
  have hat' := placeholderAt_eq_some_iff.2 hq
  obtain ⟨rfl, rfl⟩ := Prod.mk.inj (Option.some.inj (hat.symm.trans hat'))
  rfl

end Placeholder

/-- A text without a token at its beginning has the tokens of what follows its first character. -/
theorem not_before_nil {c : Char} {text : List Char} (h : placeholderAt (c :: text) = none)
    {p : Placeholder} (hp : p.Occurs (c :: text)) : p.before ≠ [] := by
  intro hbefore
  obtain ⟨before, key, after⟩ := p
  obtain rfl : before = [] := hbefore
  rw [placeholderAt_eq_some_iff.2 hp] at h
  cases h

/-- The scan finds the leftmost token. -/
theorem findPlaceholder_eq_some_iff {text : List Char} {p : Placeholder} :
    findPlaceholder text = some p ↔ p.IsFirst text := by
  induction text generalizing p with
  | nil =>
    constructor
    · intro h
      cases h
    · intro h
      have hlength := congrArg List.length h.toList_eq
      simp [Placeholder.toList] at hlength
  | cons c rest ih =>
    rw [findPlaceholder]
    rcases hat : placeholderAt (c :: rest) with - | ⟨key, after⟩
    · constructor
      · intro h
        obtain ⟨q, hq, rfl⟩ := Option.map_eq_some_iff.1 h
        obtain ⟨hoccurs, hleftmost⟩ := ih.1 hq
        refine ⟨Placeholder.occurs_cons_iff.2 hoccurs, fun q' hq' => ?_⟩
        rcases hq'.cases with hnil | ⟨before, hbefore, hrest⟩
        · exact (not_before_nil hat hq' hnil).elim
        · rw [hbefore]
          exact Nat.succ_le_succ (hleftmost _ hrest)
      · intro h
        rcases h.toOccurs.cases with hnil | ⟨before, hbefore, hrest⟩
        · exact (not_before_nil hat h.toOccurs hnil).elim
        · have hfirst : (⟨before, p.key, p.after⟩ : Placeholder).IsFirst rest := by
            refine ⟨hrest, fun q hq => ?_⟩
            have hle := h.leftmost ⟨c :: q.before, q.key, q.after⟩
              (Placeholder.occurs_cons_iff.2 hq)
            rw [hbefore] at hle
            exact Nat.le_of_succ_le_succ hle
          refine Option.map_eq_some_iff.2 ⟨_, ih.2 hfirst, ?_⟩
          rw [← hbefore]
    · have hoccurs := placeholderAt_eq_some_iff.1 hat
      constructor
      · intro h
        obtain rfl := Option.some.inj h
        exact ⟨hoccurs, fun q _ => Nat.zero_le _⟩
      · intro h
        have hbefore : p.before = [] :=
          List.eq_nil_of_length_eq_zero (Nat.le_zero.1 (h.leftmost _ hoccurs))
        exact congrArg some (hoccurs.eq_of_before_nil h.toOccurs rfl hbefore)

/-- An opening that begins no token does not hide the token behind it. -/
example : findPlaceholder "$fields\x7b$fields\x7ba\x7d".toList =
    some ⟨"$fields\x7b".toList, ['a'], []⟩ := by decide +kernel

/-- The scan finds nothing only where there is no token. -/
theorem findPlaceholder_eq_none_iff {text : List Char} :
    findPlaceholder text = none ↔ ∀ p : Placeholder, ¬ p.Occurs text := by
  constructor
  · intro h p hp
    induction text generalizing p with
    | nil =>
      have hlength := congrArg List.length hp.toList_eq
      simp [Placeholder.toList] at hlength
    | cons c rest ih =>
      rw [findPlaceholder] at h
      rcases hat : placeholderAt (c :: rest) with - | ⟨key, after⟩
      · rw [hat] at h
        rcases hp.cases with hnil | ⟨before, -, hrest⟩
        · exact not_before_nil hat hp hnil
        · exact ih (Option.map_eq_none_iff.1 h) _ hrest
      · rw [hat] at h
        cases h
  · intro h
    rcases hfind : findPlaceholder text with - | p
    · rfl
    · exact (h p (findPlaceholder_eq_some_iff.1 hfind).toOccurs).elim

/-! ### Tokens of strings -/

/-- A string is made up of some text, a token with this key, and more text. -/
structure HasToken (s before key after : String) : Prop where
  eq : s = before ++ "$fields\x7b" ++ key ++ "\x7d" ++ after
  key_ne : key ≠ ""
  isWordChar_of_mem : ∀ c ∈ key.toList, Text.isWordChar c = true

/-- No token of the string begins further to the left. -/
structure HasFirstToken (s before key after : String) : Prop
    extends HasToken s before key after where
  leftmost : ∀ before' key' after', HasToken s before' key' after' →
    before.length ≤ before'.length

theorem hasToken_iff {s before key after : String} :
    HasToken s before key after ↔
      (⟨before.toList, key.toList, after.toList⟩ : Placeholder).Occurs s.toList := by
  have heq : s = before ++ "$fields\x7b" ++ key ++ "\x7d" ++ after ↔
      (⟨before.toList, key.toList, after.toList⟩ : Placeholder).toList = s.toList := by
    rw [← String.toList_inj, eq_comm]
    simp only [String.toList_append, Placeholder.toList, List.append_assoc]
    rfl
  constructor
  · rintro ⟨hs, hne, hword⟩
    exact ⟨heq.1 hs, mt String.toList_eq_nil_iff.1 hne, hword⟩
  · rintro ⟨hs, hne, hword⟩
    exact ⟨heq.2 hs, mt String.toList_eq_nil_iff.2 hne, hword⟩

theorem Placeholder.Occurs.hasToken {p : Placeholder} {s : String} (h : p.Occurs s.toList) :
    HasToken s (String.ofList p.before) p.exportKey (String.ofList p.after) := by
  rw [hasToken_iff, exportKey, String.toList_ofList, String.toList_ofList, String.toList_ofList]
  exact h

theorem hasFirstToken_iff {s before key after : String} :
    HasFirstToken s before key after ↔
      (⟨before.toList, key.toList, after.toList⟩ : Placeholder).IsFirst s.toList := by
  constructor
  · rintro ⟨htoken, hleftmost⟩
    refine ⟨hasToken_iff.1 htoken, fun q hq => ?_⟩
    have hle := hleftmost _ _ _ hq.hasToken
    rwa [← String.length_toList, String.length_ofList] at hle
  · rintro ⟨hoccurs, hleftmost⟩
    refine ⟨hasToken_iff.2 hoccurs, fun before' key' after' h => ?_⟩
    rw [← String.length_toList, ← String.length_toList]
    exact hleftmost _ (hasToken_iff.1 h)

theorem Placeholder.IsFirst.hasFirstToken {p : Placeholder} {s : String} (h : p.IsFirst s.toList) :
    HasFirstToken s (String.ofList p.before) p.exportKey (String.ofList p.after) := by
  rw [hasFirstToken_iff, exportKey, String.toList_ofList, String.toList_ofList,
    String.toList_ofList]
  exact h

/-- A string has a leftmost token if it has one at all. -/
theorem HasToken.exists_first {s before key after : String} (h : HasToken s before key after) :
    ∃ before key after, HasFirstToken s before key after := by
  rcases hfind : findPlaceholder s.toList with - | p
  · exact (findPlaceholder_eq_none_iff.1 hfind _ (hasToken_iff.1 h)).elim
  · exact ⟨_, _, _, (findPlaceholder_eq_some_iff.1 hfind).hasFirstToken⟩

/-! ### Substitution -/

namespace Substitution

variable {s before key after : String} {exports : Exports} {v : Json}

theorem ofValue_of_hasFirstToken (h : HasFirstToken s before key after) :
    ofValue (.string s) = templated ⟨before.toList, key.toList, after.toList⟩ := by
  rw [ofValue, findPlaceholder_eq_some_iff.2 (hasFirstToken_iff.1 h)]

theorem ofValue_of_not_hasToken (h : ∀ before key after, ¬ HasToken s before key after) :
    ofValue (.string s) = literal (.string s) := by
  have hfind : findPlaceholder s.toList = none :=
    findPlaceholder_eq_none_iff.2 fun p hp => h _ _ _ hp.hasToken
  rw [ofValue, hfind]

/-- What a string stands for once it is known what was exported. -/
inductive Resolves (exports : Exports) (s : String) : Json → Prop where
  /-- A string without a token stands for itself. -/
  | plain (h : ∀ before key after, ¬ HasToken s before key after) :
      Resolves exports s (.string s)
  /-- So does a string if nothing was exported under the key of its leftmost token. -/
  | unbound {before key after : String} (h : HasFirstToken s before key after)
      (hkey : Bindings.get? key exports = none) : Resolves exports s (.string s)
  /-- A token that is the whole string stands for what was exported, whatever that is. -/
  | whole {key : String} {v : Json} (h : HasFirstToken s "" key "")
      (hkey : Bindings.get? key exports = some v) : Resolves exports s v
  /-- An exported text takes the place of a token with something around it. -/
  | text {before key after t : String} (h : HasFirstToken s before key after)
      (haround : before ≠ "" ∨ after ≠ "")
      (hkey : Bindings.get? key exports = some (.string t)) :
      Resolves exports s (.string (before ++ t ++ after))
  /-- Of any other value it is the JSON text. -/
  | printed {before key after : String} {v : Json} (h : HasFirstToken s before key after)
      (haround : before ≠ "" ∨ after ≠ "") (hkey : Bindings.get? key exports = some v)
      (hv : ∀ t, v ≠ .string t) : Resolves exports s (.string (before ++ v.compact ++ after))

theorem exists_resolves (exports : Exports) (s : String) : ∃ v, Resolves exports s v := by
  by_cases htoken : ∃ before key after, HasToken s before key after
  · obtain ⟨_, _, _, htoken⟩ := htoken
    obtain ⟨before, key, after, hfirst⟩ := htoken.exists_first
    rcases hkey : Bindings.get? key exports with - | v
    · exact ⟨_, .unbound hfirst hkey⟩
    · by_cases haround : before ≠ "" ∨ after ≠ ""
      · by_cases hv : ∃ t, v = .string t
        · obtain ⟨t, rfl⟩ := hv
          exact ⟨_, .text hfirst haround hkey⟩
        · exact ⟨_, .printed hfirst haround hkey (not_exists.1 hv)⟩
      · obtain ⟨rfl, rfl⟩ : before = "" ∧ after = "" := by
          simpa only [not_or, not_not] using haround
        exact ⟨v, .whole hfirst hkey⟩
  · refine ⟨_, .plain fun before key after h => htoken ⟨before, key, after, h⟩⟩

/-- Filling a placeholder that is not the whole string. -/
theorem fill_of_around (haround : before ≠ "" ∨ after ≠ "") (v : Json) :
    (⟨before.toList, key.toList, after.toList⟩ : Placeholder).fill v =
      .string (before ++ v.string?.getD v.compact ++ after) := by
  have hwhole : ¬ (⟨before.toList, key.toList, after.toList⟩ : Placeholder).isWhole = true := by
    rw [Placeholder.isWhole, Bool.and_eq_true, List.isEmpty_iff, List.isEmpty_iff,
      String.toList_eq_nil_iff, String.toList_eq_nil_iff, not_and_or]
    exact haround
  rw [Placeholder.fill, if_neg hwhole, Json.string.injEq, ← String.toList_inj,
    String.toList_ofList, String.toList_append, String.toList_append]

theorem resolve_of_hasFirstToken (h : HasFirstToken s before key after) (scope : Scope) :
    (ofValue (.string s)).resolve scope =
      match Bindings.get? key scope.exports with
      | some v => (⟨before.toList, key.toList, after.toList⟩ : Placeholder).fill v
      | none => .string s := by
  have htext : (⟨before.toList, key.toList, after.toList⟩ : Placeholder).text = s := by
    rw [Placeholder.text, (hasFirstToken_iff.1 h).toList_eq, String.ofList_toList]
  have hresolve : ∀ p : Placeholder, (templated p).resolve scope =
      match Bindings.get? p.exportKey scope.exports with
      | some v => p.fill v
      | none => .string p.text := fun _ => rfl
  rw [ofValue_of_hasFirstToken h, hresolve, Placeholder.exportKey, String.ofList_toList, htext]

theorem Resolves.resolve_eq {scope : Scope} (h : Resolves scope.exports s v) :
    (ofValue (.string s)).resolve scope = v := by
  rcases h with h | ⟨h, hkey⟩ | ⟨h, hkey⟩ | ⟨h, haround, hkey⟩ | ⟨h, haround, hkey, hv⟩
  · rw [ofValue_of_not_hasToken h, resolve]
  · rw [resolve_of_hasFirstToken h, hkey]
  · rw [resolve_of_hasFirstToken h, hkey]
    rfl
  · rw [resolve_of_hasFirstToken h, hkey]
    exact fill_of_around haround _
  · have hnone := Option.eq_none_iff_forall_ne_some.2 fun t ht =>
      hv t (Json.string?_eq_some_iff.1 ht)
    rw [resolve_of_hasFirstToken h, hkey]
    refine (fill_of_around haround _).trans ?_
    rw [hnone, Option.getD_none]

theorem resolve_eq_iff {scope : Scope} :
    (ofValue (.string s)).resolve scope = v ↔ Resolves scope.exports s v := by
  constructor
  · rintro rfl
    obtain ⟨w, hw⟩ := exists_resolves scope.exports s
    rwa [hw.resolve_eq]
  · exact Resolves.resolve_eq

/-- A string is templated, with a key, exactly if that is the key of its leftmost token, and it is a
literal exactly if it has no token. What it stands for depends on what was exported under the key
of the leftmost token alone, and nothing else in the string is replaced. -/
theorem ofValue_string_iff (s : String) :
    (∀ key, (∃ p, ofValue (.string s) = templated p ∧ p.text = s ∧ p.exportKey = key) ↔
      ∃ before after, HasFirstToken s before key after) ∧
    (ofValue (.string s) = literal (.string s) ↔
      ∀ before key after, ¬ HasToken s before key after) ∧
    ∀ scope v, (ofValue (.string s)).resolve scope = v ↔ Resolves scope.exports s v := by
  refine ⟨fun key => ⟨?_, ?_⟩, ⟨?_, ofValue_of_not_hasToken⟩, fun scope v => resolve_eq_iff⟩
  · rintro ⟨p, htemplated, -, rfl⟩
    have hfind : findPlaceholder s.toList = some p := by
      rw [ofValue] at htemplated
      split at htemplated
      · rename_i q hq
        rw [hq, templated.inj htemplated]
      · cases htemplated
    exact ⟨_, _, (findPlaceholder_eq_some_iff.1 hfind).hasFirstToken⟩
  · rintro ⟨before, after, h⟩
    refine ⟨_, ofValue_of_hasFirstToken h, ?_, ?_⟩
    · rw [Placeholder.text, (hasFirstToken_iff.1 h).toList_eq, String.ofList_toList]
    · rw [Placeholder.exportKey, String.ofList_toList]
  · intro hliteral before key after h
    obtain ⟨_, _, _, hfirst⟩ := h.exists_first
    rw [ofValue_of_hasFirstToken hfirst] at hliteral
    cases hliteral

end Substitution

end LiveDocs
