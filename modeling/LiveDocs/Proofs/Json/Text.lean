import LiveDocs.Json.Order
import LiveDocs.Proofs.Json.Numerals

/-!
# Texts of values

A text in quotes is read back, since each character is escaped in a way of its own. The texts of
items and members end where a comma or a bracket stands, and no text goes on there. So a value is
known from its compact text, to the order of the members and the way in which numbers are written.
Main statements: `stringBody_escaped`, an escaped text is read back; `parse?_compact_string`, and so
is the text of a string; `compact_injective`, values with one compact text are the same.
-/

namespace LiveDocs

/-! ### Strings -/

namespace Reader

theorem hexValue_hexDigit : ∀ n < 16, hexValue (Json.hexDigit n) = some n := by decide

theorem hexUnit_hexDigit {n : Nat} (h : n < 32) :
    hexUnit '0' '0' (Json.hexDigit (n / 16)) (Json.hexDigit (n % 16)) = some n := by
  have hhigh := hexValue_hexDigit (n / 16) (by omega)
  have hlow := hexValue_hexDigit (n % 16) (by omega)
  have hzero : hexValue '0' = some 0 := by decide
  simp [hexUnit, hhigh, hlow, hzero]
  omega

/-- A piece stands for a character: it is the character, or a control character as a unit. -/
def Piece.Means (c : Char) : Piece → Prop
  | .char d => d = c
  | .unit n => n = c.toNat ∧ c.toNat < 0x20

variable {c : Char} {p : Piece} {ps : List Piece} {text rest : List Char}

/-- An escaped character is read as one piece. -/
theorem exists_pieces_escapeChar (c : Char) : ∃ p : Piece, p.Means c ∧
    ∀ {text ps rest}, pieces text = some (ps, rest) →
      pieces (Json.escapeChar c ++ text) = some (p :: ps, rest) := by
  rw [Json.escapeChar]
  iterate 7
    split
    · refine ⟨.char c, rfl, fun h => ?_⟩
      subst_vars
      simp [pieces, shortEscape, h]
  split
  · rename_i hcontrol
    refine ⟨.unit c.toNat, ⟨rfl, hcontrol⟩, fun h => ?_⟩
    simp [pieces, hexUnit_hexDigit hcontrol, h]
  · -- all other characters stand for themselves
    rename_i hquote hslash _ _ _ _ _ hcontrol
    refine ⟨.char c, rfl, fun h => ?_⟩
    rw [List.singleton_append, pieces]
    · simp [hslash, hcontrol, h]
    · exact hquote
    · exact fun _ _ _ _ _ hc => absurd hc hslash
    · exact fun _ _ hc => absurd hc hslash

theorem joinPieces_cons (h : p.Means c) : joinPieces (p :: ps) = (joinPieces ps).map (c :: ·) := by
  cases p with
  | char d =>
    obtain rfl : d = c := h
    rw [joinPieces, Option.map_eq_bind]
    rfl
  | unit n =>
    -- a control character is no half of a pair
    obtain ⟨rfl, hcontrol⟩ := h
    have hlow : ¬(0xD800 ≤ c.toNat ∧ c.toNat < 0xDC00) := by omega
    have hhigh : ¬(0xDC00 ≤ c.toNat ∧ c.toNat < 0xE000) := by omega
    have hboth : ¬(0xD800 ≤ c.toNat ∧ c.toNat < 0xE000) := by omega
    rcases ps with _ | ⟨_ | low, ps⟩
    · simp [joinPieces, hboth]
    · simp [joinPieces, hboth, Option.map_eq_bind]
    · simp [joinPieces, hlow, hhigh, Option.map_eq_bind]

/-- An escaped text is read back up to its closing quote. -/
theorem stringBody_escaped (s : String) (rest : List Char) :
    stringBody (s.toList.flatMap Json.escapeChar ++ '"' :: rest) = some (s, rest) := by
  have hpieces : ∀ cs : List Char, ∃ ps,
      pieces (cs.flatMap Json.escapeChar ++ '"' :: rest) = some (ps, rest) ∧
        joinPieces ps = some cs := by
    intro cs
    induction cs with
    | nil => exact ⟨[], by simp [pieces], by rw [joinPieces]⟩
    | cons c cs ih =>
      obtain ⟨ps, hps, hjoin⟩ := ih
      obtain ⟨p, hp, hread⟩ := exists_pieces_escapeChar c
      refine ⟨p :: ps, ?_, ?_⟩
      · rw [List.flatMap_cons, List.append_assoc]
        exact hread hps
      · rw [joinPieces_cons hp, hjoin, Option.map_some]
  obtain ⟨ps, hps, hjoin⟩ := hpieces s.toList
  simp [stringBody, hps, hjoin]

end Reader

theorem Json.quote_append (s : String) (rest : List Char) :
    (quote s).toList ++ rest = '"' :: (s.toList.flatMap escapeChar ++ '"' :: rest) := by
  rw [quote, String.toList_ofList, List.cons_append, List.append_assoc, List.singleton_append]

theorem Json.eq_of_quote_append {s t : String} {rest rest' : List Char}
    (h : (quote s).toList ++ rest = (quote t).toList ++ rest') : s = t ∧ rest = rest' := by
  rw [quote_append, quote_append, List.cons.injEq] at h
  have hread := Reader.stringBody_escaped s rest
  rw [h.2, Reader.stringBody_escaped t rest'] at hread
  obtain ⟨rfl, rfl⟩ := Prod.mk.inj (Option.some.inj hread)
  exact ⟨rfl, rfl⟩

/-- The text of a string reads back as the string. -/
theorem Json.parse?_compact_string (s : String) :
    parse? (compact (.string s)) = some (.string s) := by
  have htext : (compact (.string s)).toList = '"' :: (s.toList.flatMap escapeChar ++ ['"']) := by
    rw [compact, ← quote_append s [], List.append_nil]
  have hskip : ∀ rest, Reader.skipBlanks ('"' :: rest) = '"' :: rest := fun rest =>
    List.dropWhile_cons_of_neg (by decide)
  have hvalue : Reader.value 127 (compact (.string s)).toList = some (.string s, []) := by
    rw [Reader.value, htext, hskip]
    simp [Reader.scalar, Reader.stringBody_escaped s []]
  rw [parse?, parseRaw?, hvalue]
  rfl

/-! ### Values -/

namespace Json

open Reader (Stops stops_nil stops_cons)

/-- The type of the value whose text starts with a character, as its rank; brackets and separators
have ranks beyond those. -/
def leadRank : Char → Nat
  | 'n' => 0
  | 't' => 1
  | 'f' => 1
  | '"' => 3
  | '[' => 4
  | '{' => 5
  | ']' => 6
  | _ => 2

theorem leadRank_of_not_stops {c : Char} {text : List Char} (h : ¬Stops (c :: text)) :
    leadRank c = 2 := by
  unfold leadRank
  split
  iterate 7
    exact absurd (stops_cons (by decide) text) h
  rfl

theorem exists_lead_compact (v : Json) {rest : List Char} (hrest : Stops rest) :
    ∃ c text, v.compact.toList ++ rest = c :: text ∧ leadRank c = v.typeRank := by
  cases v with
  | null => exact ⟨_, _, rfl, rfl⟩
  | bool value => cases value <;> exact ⟨_, _, rfl, rfl⟩
  | number n =>
    rw [compact, n.toList_text]
    split
    · exact ⟨'-', _, rfl, rfl⟩
    · have hlead := n.not_stops_unsigned hrest
      cases htext : n.unsigned ++ rest with
      | nil =>
        rw [htext] at hlead
        exact absurd stops_nil hlead
      | cons c text => exact ⟨c, text, rfl, leadRank_of_not_stops (htext ▸ hlead)⟩
  | string s => exact ⟨'"', _, quote_append s rest, rfl⟩
  | array items =>
    rw [compact, String.toList_append, String.toList_append]
    exact ⟨'[', _, rfl, rfl⟩
  | object members =>
    rw [compact, String.toList_append, String.toList_append]
    exact ⟨'{', _, rfl, rfl⟩

/-- What follows an item up to the end of its array and beyond. -/
def afterItem (rest : List Char) : List Json → List Char
  | [] => ']' :: rest
  | item :: more => ',' :: ((compactItems (item :: more)).toList ++ ']' :: rest)

theorem compactItems_cons_append (item : Json) (more : List Json) (rest : List Char) :
    (compactItems (item :: more)).toList ++ ']' :: rest =
      item.compact.toList ++ afterItem rest more := by
  cases more with
  | nil => rw [compactItems, afterItem]
  | cons next more =>
    rw [compactItems, String.toList_append, String.toList_append, List.append_assoc,
      List.append_assoc]
    rfl

/-- What follows a member up to the end of its object and beyond. -/
def afterMember (rest : List Char) : List (String × Json) → List Char
  | [] => '}' :: rest
  | member :: more => ',' :: ((compactMembers (member :: more)).toList ++ '}' :: rest)

theorem compactMembers_cons_append (key : String) (value : Json) (more : List (String × Json))
    (rest : List Char) :
    (compactMembers ((key, value) :: more)).toList ++ '}' :: rest =
      (quote key).toList ++ ':' :: (value.compact.toList ++ afterMember rest more) := by
  cases more with
  | nil =>
    rw [compactMembers, afterMember, String.toList_append, String.toList_append, List.append_assoc,
      List.append_assoc]
    rfl
  | cons next more =>
    rw [compactMembers, String.toList_append, String.toList_append, String.toList_append,
      String.toList_append, List.append_assoc, List.append_assoc, List.append_assoc,
      List.append_assoc]
    rfl

theorem stops_afterItem (rest : List Char) (items : List Json) : Stops (afterItem rest items) := by
  cases items with
  | nil => exact stops_cons (by decide) _
  | cons item more => exact stops_cons (by decide) _

theorem stops_afterMember (rest : List Char) (members : List (String × Json)) :
    Stops (afterMember rest members) := by
  cases members with
  | nil => exact stops_cons (by decide) _
  | cons member more => exact stops_cons (by decide) _

/-- No text of a value starts with the end of an array. -/
theorem compact_append_ne_close (v : Json) {rest : List Char} (hrest : Stops rest)
    (text : List Char) : v.compact.toList ++ rest ≠ ']' :: text := by
  intro h
  obtain ⟨c, text', hlead, hrank⟩ := exists_lead_compact v hrest
  rw [h, List.cons.injEq] at hlead
  rw [← hlead.1] at hrank
  cases v <;> cases hrank

theorem quote_append_ne_close (key : String) (rest text : List Char) :
    (quote key).toList ++ rest ≠ '}' :: text := by
  rw [quote_append, Ne, List.cons.injEq]
  exact fun h => absurd h.1 (by decide)

theorem typeRank_eq_of_compact_append {v w : Json} {rest rest' : List Char} (hrest : Stops rest)
    (hrest' : Stops rest') (h : v.compact.toList ++ rest = w.compact.toList ++ rest') :
    v.typeRank = w.typeRank := by
  obtain ⟨c, text, hlead, hrank⟩ := exists_lead_compact v hrest
  obtain ⟨c', text', hlead', hrank'⟩ := exists_lead_compact w hrest'
  rw [h, hlead', List.cons.injEq] at hlead
  rw [← hrank, ← hrank', hlead.1]

mutual

/-- A value is known from its text, whatever comes behind it. -/
theorem eq_of_compact_append (v w : Json) {rest rest' : List Char} (hrest : Stops rest)
    (hrest' : Stops rest') (h : v.compact.toList ++ rest = w.compact.toList ++ rest') :
    v = w ∧ rest = rest' := by
  have hrank := typeRank_eq_of_compact_append hrest hrest' h
  cases v with
  | null =>
    cases w with
    | null => exact ⟨rfl, List.append_cancel_left h⟩
    | _ => cases hrank
  | bool a =>
    cases w with
    | bool b =>
      cases a <;> cases b
      · exact ⟨rfl, List.append_cancel_left h⟩
      · cases h
      · cases h
      · exact ⟨rfl, List.append_cancel_left h⟩
    | _ => cases hrank
  | number m =>
    cases w with
    | number n =>
      rw [compact, compact] at h
      obtain ⟨rfl, hrest⟩ := JsonNumber.eq_of_text_append hrest hrest' h
      exact ⟨rfl, hrest⟩
    | _ => cases hrank
  | string s =>
    cases w with
    | string t =>
      rw [compact, compact] at h
      obtain ⟨rfl, hrest⟩ := eq_of_quote_append h
      exact ⟨rfl, hrest⟩
    | _ => cases hrank
  | array items =>
    cases w with
    | array items' =>
      rw [compact, compact] at h
      simp only [String.toList_append, List.append_assoc] at h
      obtain ⟨rfl, hrest⟩ := eq_of_compactItems_append items items' (List.append_cancel_left h)
      exact ⟨rfl, hrest⟩
    | _ => cases hrank
  | object members =>
    cases w with
    | object members' =>
      rw [compact, compact] at h
      simp only [String.toList_append, List.append_assoc] at h
      obtain ⟨rfl, hrest⟩ :=
        eq_of_compactMembers_append members members' (List.append_cancel_left h)
      exact ⟨rfl, hrest⟩
    | _ => cases hrank

theorem eq_of_compactItems_append (items items' : List Json) {rest rest' : List Char}
    (h : (compactItems items).toList ++ ']' :: rest =
      (compactItems items').toList ++ ']' :: rest') : items = items' ∧ rest = rest' := by
  cases items with
  | nil =>
    cases items' with
    | nil => exact ⟨rfl, (List.cons.inj h).2⟩
    | cons item' more' =>
      rw [compactItems_cons_append] at h
      exact absurd h.symm (compact_append_ne_close item' (stops_afterItem _ _) _)
  | cons item more =>
    rw [compactItems_cons_append] at h
    cases items' with
    | nil => exact absurd h (compact_append_ne_close item (stops_afterItem _ _) _)
    | cons item' more' =>
      rw [compactItems_cons_append] at h
      obtain ⟨rfl, hafter⟩ :=
        eq_of_compact_append item item' (stops_afterItem _ _) (stops_afterItem _ _) h
      cases more with
      | nil =>
        cases more' with
        | nil => exact ⟨rfl, (List.cons.inj hafter).2⟩
        | cons => cases (List.cons.inj hafter).1
      | cons next more =>
        cases more' with
        | nil => cases (List.cons.inj hafter).1
        | cons next' more' =>
          obtain ⟨hmore, hrest⟩ :=
            eq_of_compactItems_append (next :: more) (next' :: more') (List.cons.inj hafter).2
          exact ⟨by rw [hmore], hrest⟩

theorem eq_of_compactMembers_append (members members' : List (String × Json))
    {rest rest' : List Char}
    (h : (compactMembers members).toList ++ '}' :: rest =
      (compactMembers members').toList ++ '}' :: rest') : members = members' ∧ rest = rest' := by
  cases members with
  | nil =>
    cases members' with
    | nil => exact ⟨rfl, (List.cons.inj h).2⟩
    | cons member' more' =>
      rw [compactMembers_cons_append] at h
      exact absurd h.symm (quote_append_ne_close _ _ _)
  | cons member more =>
    obtain ⟨key, value⟩ := member
    rw [compactMembers_cons_append] at h
    cases members' with
    | nil => exact absurd h (quote_append_ne_close _ _ _)
    | cons member' more' =>
      obtain ⟨key', value'⟩ := member'
      rw [compactMembers_cons_append] at h
      obtain ⟨rfl, hvalue⟩ := eq_of_quote_append h
      obtain ⟨rfl, hafter⟩ := eq_of_compact_append value value' (stops_afterMember _ _)
        (stops_afterMember _ _) (List.cons.inj hvalue).2
      cases more with
      | nil =>
        cases more' with
        | nil => exact ⟨rfl, (List.cons.inj hafter).2⟩
        | cons => cases (List.cons.inj hafter).1
      | cons next more =>
        cases more' with
        | nil => cases (List.cons.inj hafter).1
        | cons next' more' =>
          obtain ⟨hmore, hrest⟩ :=
            eq_of_compactMembers_append (next :: more) (next' :: more') (List.cons.inj hafter).2
          exact ⟨by rw [hmore], hrest⟩

end

/-- Values with one compact text are the same, to the order of the members. -/
theorem compact_injective : Function.Injective compact := by
  intro v w h
  exact (eq_of_compact_append v w stops_nil stops_nil (by rw [h])).1

/-- Of a result that is a value, the compact text says which value it is. -/
theorem eq_ok_of_compact {ε : Type} {r : Except ε Json} {v : Json}
    (h : r.toOption.map compact = some v.compact) : r = .ok v := by
  cases r with
  | error e => cases h
  | ok w => exact congrArg Except.ok (compact_injective (Option.some.inj h))

end Json

end LiveDocs
