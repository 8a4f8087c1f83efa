import LiveDocs.Text.Inflection
import Mathlib.Data.List.Basic

/-!
# Words of a name

A name is split in one pass over its characters, which looks one character back and one ahead. The
pass is written here once more by index: while a word is being collected, the character one place
behind is its last one, so that looking back never leaves the name. Where the words break is said
without the pass: between two alphanumeric characters that follow one another a word ends if
something else stands between them, or if the second one opens a word. Main statements:
`Scan.exists_reached`, the pass by index finds the same words; `parted_wordsFrom`, where the words
break; `toList_pascalCase`, an ASCII name keeps its letters and digits; `words_exact`, all of this.
-/

namespace LiveDocs.Text

/-- After `previous` and in front of `next`, the character `c` opens a word: it is in uppercase, and
it follows a lowercase character, an ASCII digit, or an uppercase character if a lowercase one comes
next. -/
def OpensWord (previous c : Char) (next : Option Char) : Prop :=
  isUppercase c = true ∧ (isLowercase previous = true ∨ isAsciiDigit previous = true ∨
    isUppercase previous = true ∧ ∃ d, next = some d ∧ isLowercase d = true)

theorem startsWord_concat {front : List Char} {previous c : Char} {rest : List Char} :
    startsWord (front ++ [previous]) c rest = true ↔ OpensWord previous c rest.head? := by
  rw [startsWord, List.getLast?_concat, OpensWord]
  simp only [Bool.and_eq_true, Bool.or_eq_true, Option.any_eq_true, or_assoc]

/-- Only an uppercase character starts a word, and only while another word is being collected. -/
theorem of_startsWord {current : List Char} {c : Char} {rest : List Char}
    (h : startsWord current c rest = true) : isUppercase c = true ∧ current ≠ [] := by
  rw [startsWord, Bool.and_eq_true] at h
  refine ⟨h.1, ?_⟩
  rintro rfl
  exact absurd h.2 (by simp)

instance (previous c : Char) (next : Option Char) : Decidable (OpensWord previous c next) :=
  decidable_of_iff (startsWord [previous] c next.toList = true) (by
    rw [← List.nil_append [previous], startsWord_concat, Option.head?_toList])

/-! ### The pass by index -/

/-- The state of a pass: the words that are finished, and the word that is being collected. -/
structure Scan where
  finished : List (List Char)
  current : List Char

namespace Scan

variable {cs : List Char} {i : Nat} {s : Scan}

/-- The state before the first character. -/
def start : Scan := ⟨[], []⟩

/-- The words of a state. The one that is being collected counts unless it is empty. -/
def words (s : Scan) : List (List Char) := s.finished ++ flushWord s.current

/-- The character one place behind an index. There is none behind the first one. -/
def behind (cs : List Char) : Nat → Option Char
  | 0 => none
  | i + 1 => cs[i]?

/-- Takes in the character at an index. It fails if it looks at a place where there is none. -/
def step (cs : List Char) (i : Nat) (s : Scan) : Option Scan :=
  cs[i]?.bind fun c =>
    if isAlphanumeric c = false then some ⟨s.words, []⟩
    else if isUppercase c = true ∧ s.current ≠ [] then
      (behind cs i).map fun previous =>
        if OpensWord previous c cs[i + 1]? then ⟨s.finished ++ [s.current], [c]⟩
        else ⟨s.finished, s.current ++ [c]⟩
    else some ⟨s.finished, s.current ++ [c]⟩

/-- The state that a pass reaches before it looks at an index. -/
def reached (cs : List Char) : Nat → Option Scan
  | 0 => some start
  | i + 1 => (reached cs i).bind (step cs i)

/-- A state before an index: what is being collected ends one place behind, and the words of the
state together with those of what is still to come are the words of the text. -/
structure Tracks (cs : List Char) (i : Nat) (s : Scan) : Prop where
  behind : s.current ≠ [] → ∃ c, Scan.behind cs i = some c ∧ s.current.getLast? = some c
  words : s.finished ++ wordsFrom s.current (cs.drop i) = wordsFrom [] cs

theorem tracks_start : Tracks cs 0 start where
  behind h := absurd rfl h
  words := rfl

/-- Each step succeeds and keeps track. -/
theorem Tracks.step (h : Tracks cs i s) (hi : i < cs.length) :
    ∃ s', Scan.step cs i s = some s' ∧ Tracks cs (i + 1) s' := by
  have hc : cs[i]? = some cs[i] := List.getElem?_eq_getElem hi
  have hnext : (cs.drop (i + 1)).head? = cs[i + 1]? := List.head?_drop
  have hwords := h.words
  rw [List.drop_eq_getElem_cons hi, wordsFrom] at hwords
  -- whatever is collected now ends with the character at `i`
  have hends : ∀ front : List Char, front ++ [cs[i]] ≠ [] →
      ∃ c, Scan.behind cs (i + 1) = some c ∧ (front ++ [cs[i]]).getLast? = some c :=
    fun front _ => ⟨cs[i], hc, List.getLast?_concat⟩
  rw [Scan.step, hc, Option.bind_some]
  by_cases halnum : isAlphanumeric cs[i] = false
  · rw [if_pos halnum] at hwords ⊢
    refine ⟨_, rfl, fun hne => absurd rfl hne, ?_⟩
    rw [← hwords, Scan.words, List.append_assoc]
  · rw [if_neg halnum] at hwords ⊢
    by_cases hupper : isUppercase cs[i] = true ∧ s.current ≠ []
    · obtain ⟨previous, hprevious, hlast⟩ := h.behind hupper.2
      obtain ⟨front, hfront⟩ := List.getLast?_eq_some_iff.1 hlast
      have hstarts : startsWord s.current cs[i] (cs.drop (i + 1)) = true ↔
          OpensWord previous cs[i] cs[i + 1]? := by
        rw [hfront, startsWord_concat, hnext]
      rw [if_pos hupper, hprevious, Option.map_some]
      by_cases hopens : OpensWord previous cs[i] cs[i + 1]?
      · rw [if_pos (hstarts.2 hopens)] at hwords
        rw [if_pos hopens]
        refine ⟨_, rfl, hends [], ?_⟩
        rw [← hwords, List.append_assoc, List.singleton_append]
      · rw [if_neg (mt hstarts.1 hopens)] at hwords
        rw [if_neg hopens]
        exact ⟨_, rfl, hends s.current, hwords⟩
    · rw [if_neg (mt of_startsWord hupper)] at hwords
      rw [if_neg hupper]
      exact ⟨_, rfl, hends s.current, hwords⟩

/-- Every index is reached, and the state there keeps track. -/
theorem exists_reached (cs : List Char) :
    ∀ i ≤ cs.length, ∃ s, reached cs i = some s ∧ Tracks cs i s := by
  intro i
  induction i with
  | zero => exact fun _ => ⟨start, rfl, tracks_start⟩
  | succ i ih =>
    intro hi
    obtain ⟨s, hs, htracks⟩ := ih (Nat.le_of_succ_le hi)
    obtain ⟨s', hs', htracks'⟩ := htracks.step hi
    refine ⟨s', ?_, htracks'⟩
    rw [reached, hs, Option.bind_some, hs']

theorem Tracks.words_eq (h : Tracks cs cs.length s) : s.words = wordsFrom [] cs := by
  rw [← h.words, List.drop_length, wordsFrom, Scan.words]

end Scan

/-! ### Where words break -/

/-- Which of some words, counted from zero, holds the character at a place of all of them one after
the other. -/
def wordAt : List (List Char) → Nat → Nat
  | [], _ => 0
  | word :: rest, k => if k < word.length then 0 else wordAt rest (k - word.length) + 1

/-- The characters at a place and at the next one are in different words. -/
def Parted (words : List (List Char)) (k : Nat) : Prop := wordAt words k ≠ wordAt words (k + 1)

theorem wordAt_append (front rest : List (List Char)) (k : Nat) :
    wordAt (front ++ rest) (front.flatten.length + k) = front.length + wordAt rest k := by
  induction front with
  | nil => simp
  | cons word front ih =>
    have hplace : (word :: front).flatten.length + k =
        word.length + (front.flatten.length + k) := by
      rw [List.flatten_cons, List.length_append]
      omega
    rw [hplace, List.cons_append, wordAt, if_neg (by omega), Nat.add_sub_cancel_left, ih,
      List.length_cons]
    omega

theorem parted_append {front rest : List (List Char)} {k : Nat} :
    Parted (front ++ rest) (front.flatten.length + k) ↔ Parted rest k := by
  rw [Parted, Parted, Nat.add_assoc, wordAt_append, wordAt_append]
  omega

theorem parted_end (front : List Char) (last : Char) (rest : List (List Char)) :
    Parted ((front ++ [last]) :: rest) front.length := by
  have hlength : (front ++ [last]).length = front.length + 1 := List.length_append
  rw [Parted, wordAt, wordAt, if_pos (by omega), if_neg (by omega)]
  omega

theorem not_parted_within (front more : List Char) (first second : Char)
    (rest : List (List Char)) :
    ¬Parted ((front ++ [first] ++ [second] ++ more) :: rest) front.length := by
  have hlength : (front ++ [first] ++ [second] ++ more).length =
      front.length + 2 + more.length := by
    rw [List.length_append, List.length_append, List.length_append]
    rfl
  rw [Parted, wordAt, wordAt, if_pos (by omega), if_pos (by omega), not_not]

variable {front gap after : List Char} {first second : Char}

/-- A word that is being collected becomes the start of the first word. -/
theorem exists_wordsFrom_eq_cons {current : List Char} (h : current ≠ []) (cs : List Char) :
    ∃ more rest, wordsFrom current cs = (current ++ more) :: rest := by
  induction cs generalizing current with
  | nil => exact ⟨[], [], by simp [wordsFrom, flushWord, h]⟩
  | cons c cs ih =>
    rw [wordsFrom]
    split
    · exact ⟨[], wordsFrom [] cs, by simp [flushWord, h]⟩
    · split
      · exact ⟨[], wordsFrom [c] cs, by rw [List.append_nil]⟩
      · have hne : current ++ [c] ≠ [] := by simp
        obtain ⟨more, rest, hwords⟩ := ih hne
        exact ⟨[c] ++ more, rest, by rw [hwords, List.append_assoc]⟩

/-- One character finishes some words, and what is collected goes on from them. -/
theorem exists_wordsFrom_cons (current : List Char) (c : Char) (rest : List Char) :
    ∃ done current', wordsFrom current (c :: rest) = done ++ wordsFrom current' rest ∧
      done.flatten ++ current' = current ++ [c].filter isAlphanumeric := by
  rw [wordsFrom]
  split
  · rename_i halnum
    refine ⟨flushWord current, [], rfl, ?_⟩
    rw [flatten_flushWord, List.filter_cons_of_neg (by simp [halnum]), List.filter_nil]
  · rename_i halnum
    have hfilter : [c].filter isAlphanumeric = [c] :=
      List.filter_cons_of_pos (by simpa using halnum)
    rw [hfilter]
    split
    · exact ⟨[current], [c], rfl, by simp⟩
    · exact ⟨[], current ++ [c], rfl, rfl⟩

/-- The end of a word that is being collected. -/
theorem parted_wordsFrom_concat (hgap : ∀ c ∈ gap, isAlphanumeric c = false)
    (hsecond : isAlphanumeric second = true) :
    Parted (wordsFrom (front ++ [first]) (gap ++ second :: after)) front.length ↔
      gap ≠ [] ∨ OpensWord first second after.head? := by
  cases gap with
  | nil =>
    rw [List.nil_append, wordsFrom, if_neg (by simp [hsecond])]
    by_cases hopens : OpensWord first second after.head?
    · rw [if_pos (startsWord_concat.2 hopens)]
      exact iff_of_true (parted_end _ _ _) (.inr hopens)
    · rw [if_neg (mt startsWord_concat.1 hopens)]
      have hne : front ++ [first] ++ [second] ≠ [] := by simp
      obtain ⟨more, rest, hwords⟩ := exists_wordsFrom_eq_cons hne after
      rw [hwords]
      exact iff_of_false (not_parted_within _ _ _ _ _) (by simp [hopens])
  | cons c gap =>
    have hflush : flushWord (front ++ [first]) = [front ++ [first]] := by simp [flushWord]
    rw [List.cons_append, wordsFrom, if_pos (hgap c List.mem_cons_self), hflush,
      List.singleton_append]
    exact iff_of_true (parted_end _ _ _) (.inl (by simp))

/-- Of two alphanumeric characters with no other one between them, the second is in another word
than the first exactly if something stands between them or it opens a word. -/
theorem parted_wordsFrom (hfirst : isAlphanumeric first = true)
    (hgap : ∀ c ∈ gap, isAlphanumeric c = false) (hsecond : isAlphanumeric second = true)
    (current : List Char) :
    Parted (wordsFrom current (front ++ first :: (gap ++ second :: after)))
        (current.length + (front.filter isAlphanumeric).length) ↔
      gap ≠ [] ∨ OpensWord first second after.head? := by
  induction front generalizing current with
  | nil =>
    rw [List.nil_append, wordsFrom, if_neg (by simp [hfirst])]
    split
    · -- `current` is a word of its own, and `first` stands at the start of what is collected
      have happend :=
        @parted_append [current] (wordsFrom ([] ++ [first]) (gap ++ second :: after)) 0
      rw [List.flatten_singleton, List.singleton_append] at happend
      exact happend.trans (parted_wordsFrom_concat hgap hsecond)
    · exact parted_wordsFrom_concat hgap hsecond
  | cons c front ih =>
    obtain ⟨done, current', hwords, hflatten⟩ :=
      exists_wordsFrom_cons current c (front ++ first :: (gap ++ second :: after))
    have hlength := congrArg List.length hflatten
    have hcons : (c :: front).filter isAlphanumeric =
        [c].filter isAlphanumeric ++ front.filter isAlphanumeric := by
      rw [← List.filter_append, List.singleton_append]
    have hplace : current.length + ((c :: front).filter isAlphanumeric).length =
        done.flatten.length + (current'.length + (front.filter isAlphanumeric).length) := by
      rw [List.length_append, List.length_append] at hlength
      rw [hcons, List.length_append]
      omega
    rw [List.cons_append, hwords, hplace, parted_append]
    exact ih current'

/-! ### ASCII names -/

/-- A word with its first letter in uppercase and the others in lowercase, letter by letter. -/
def capitalized : List Char → List Char
  | [] => []
  | c :: rest => c.toUpper :: rest.map Char.toLower

/-- Within ASCII, a change of case changes single letters. -/
theorem case_of_ascii {c : Char} (h : c.toNat < 128) :
    uppercase c = [c.toUpper] ∧ lowercase c = [c.toLower] ∧ c.toUpper.toLower = c.toLower ∧
      c.toLower.toLower = c.toLower := by
  have hall : ∀ n < 128, uppercase (.ofNat n) = [(Char.ofNat n).toUpper] ∧
      lowercase (.ofNat n) = [(Char.ofNat n).toLower] ∧
      (Char.ofNat n).toUpper.toLower = (Char.ofNat n).toLower ∧
      (Char.ofNat n).toLower.toLower = (Char.ofNat n).toLower := by decide +kernel
  have hc := hall c.toNat h
  rwa [Char.ofNat_toNat] at hc

theorem capitalize_of_ascii {word : List Char} (h : ∀ c ∈ word, c.toNat < 128) :
    capitalize word = capitalized word := by
  cases word with
  | nil => rfl
  | cons c rest =>
    obtain ⟨hc, hrest⟩ := List.forall_mem_cons.1 h
    have hlower : rest.flatMap lowercase = rest.map Char.toLower := by
      rw [← List.flatMap_singleton' (rest.map Char.toLower), List.flatMap_map]
      exact List.flatMap_congr fun d hd => (case_of_ascii (hrest d hd)).2.1
    rw [capitalize, capitalized, (case_of_ascii hc).1, hlower, List.singleton_append]

theorem map_toLower_capitalized {word : List Char} (h : ∀ c ∈ word, c.toNat < 128) :
    (capitalized word).map Char.toLower = word.map Char.toLower := by
  cases word with
  | nil => rfl
  | cons c rest =>
    obtain ⟨hc, hrest⟩ := List.forall_mem_cons.1 h
    have hlower : (rest.map Char.toLower).map Char.toLower = rest.map Char.toLower := by
      rw [List.map_map]
      exact List.map_congr_left fun d hd => (case_of_ascii (hrest d hd)).2.2.2
    rw [capitalized, List.map_cons, (case_of_ascii hc).2.2.1, hlower, List.map_cons]

/-- An ASCII name keeps its letters and digits, and its words are capitalized letter by letter. -/
theorem toList_pascalCase {name : String} (h : ∀ c ∈ name.toList, c.toNat < 128) :
    (pascalCase name).toList = (words name).flatMap capitalized ∧
      (pascalCase name).toList.map Char.toLower =
        (name.toList.filter isAlphanumeric).map Char.toLower := by
  have hflatten : (words name).flatten = name.toList.filter isAlphanumeric :=
    flatten_wordsFrom [] name.toList
  have hwords : ∀ word ∈ words name, ∀ c ∈ word, c.toNat < 128 := by
    intro word hword c hc
    have hmem : c ∈ (words name).flatten := List.mem_flatten.2 ⟨word, hword, hc⟩
    rw [hflatten] at hmem
    exact h c (List.mem_filter.1 hmem).1
  have hcapitalized : (pascalCase name).toList = (words name).flatMap capitalized := by
    rw [pascalCase, String.toList_ofList]
    exact List.flatMap_congr fun word hword => capitalize_of_ascii (hwords word hword)
  refine ⟨hcapitalized, ?_⟩
  calc (pascalCase name).toList.map Char.toLower
      = (words name).flatMap fun word => (capitalized word).map Char.toLower := by
        rw [hcapitalized, List.map_flatMap]
    _ = (words name).flatMap fun word => word.map Char.toLower :=
        List.flatMap_congr fun word hword => map_toLower_capitalized (hwords word hword)
    _ = (name.toList.filter isAlphanumeric).map Char.toLower := by
        rw [← hflatten, List.map_flatten, List.flatMap_def]

/-! ### All together -/

/-- The words of a name are not empty and hold its alphanumeric characters in order. The pass by
index never looks outside the name, looks back at the last character of the word that it collects,
and finds the same words. Of two alphanumeric characters with no other one between them, the second
is in another word than the first exactly if something stands between them or it opens a word. And
the words of an ASCII name, capitalized, spell those characters up to the case. -/
theorem words_exact (name : String) :
    (∀ word ∈ words name, word ≠ []) ∧
      (words name).flatten = name.toList.filter isAlphanumeric ∧
      (∀ i ≤ name.toList.length, ∃ s, Scan.reached name.toList i = some s ∧
        (s.current ≠ [] →
          ∃ c, Scan.behind name.toList i = some c ∧ s.current.getLast? = some c) ∧
        (i = name.toList.length → s.words = words name)) ∧
      (∀ front first gap second after, name.toList = front ++ first :: (gap ++ second :: after) →
        isAlphanumeric first = true → (∀ c ∈ gap, isAlphanumeric c = false) →
        isAlphanumeric second = true →
        (Parted (words name) (front.filter isAlphanumeric).length ↔
          gap ≠ [] ∨ OpensWord first second after.head?)) ∧
      ((∀ c ∈ name.toList, c.toNat < 128) →
        (pascalCase name).toList = (words name).flatMap capitalized ∧
          (pascalCase name).toList.map Char.toLower =
            (name.toList.filter isAlphanumeric).map Char.toLower) := by
  refine ⟨fun _ => ne_nil_of_mem_wordsFrom, flatten_wordsFrom [] name.toList, fun i hi => ?_,
    fun front first gap second after hname hfirst hgap hsecond => ?_, toList_pascalCase⟩
  · obtain ⟨s, hs, htracks⟩ := Scan.exists_reached name.toList i hi
    refine ⟨s, hs, htracks.behind, fun hlast => ?_⟩
    rw [hlast] at htracks
    exact htracks.words_eq
  · have hparted : Parted (wordsFrom [] (front ++ first :: (gap ++ second :: after)))
        (0 + (front.filter isAlphanumeric).length) ↔
          gap ≠ [] ∨ OpensWord first second after.head? :=
      parted_wordsFrom hfirst hgap hsecond []
    rw [Nat.zero_add] at hparted
    rw [words, hname]
    exact hparted

/-- The last letter of a run of capitals goes with the lowercase letters behind it. -/
theorem words_exact_httpRequest :
    (∀ c ∈ "HTTPRequest_v2".toList, c.toNat < 128) ∧
      isAlphanumeric 'P' = true ∧ isAlphanumeric 'R' = true ∧
      Parted (words "HTTPRequest_v2") 3 ∧ ¬Parted (words "HTTPRequest_v2") 2 ∧
      (pascalCase "HTTPRequest_v2").toList.map Char.toLower =
        ("HTTPRequest_v2".toList.filter isAlphanumeric).map Char.toLower := by
  have hascii : ∀ c ∈ "HTTPRequest_v2".toList, c.toNat < 128 := by simp
  have hP : isAlphanumeric 'P' = true := by decide +kernel
  have hR : isAlphanumeric 'R' = true := by decide +kernel
  have hT : isAlphanumeric 'T' = true := by decide +kernel
  obtain ⟨-, -, -, hparted, hpascal⟩ := words_exact "HTTPRequest_v2"
  have hbreak := hparted ['H', 'T', 'T'] 'P' [] 'R' "equest_v2".toList (by decide +kernel) hP
    (by simp) hR
  have hrun := hparted ['H', 'T'] 'T' [] 'P' "Request_v2".toList (by decide +kernel) hT
    (by simp) hP
  have hopens : OpensWord 'P' 'R' "equest_v2".toList.head? := by decide +kernel
  have hstays : ¬OpensWord 'T' 'P' "Request_v2".toList.head? := by decide +kernel
  refine ⟨hascii, hP, hR, ?_, ?_, (hpascal hascii).2⟩
  · have hthree : (['H', 'T', 'T'].filter isAlphanumeric).length = 3 := by decide +kernel
    rw [hthree] at hbreak
    exact hbreak.2 (.inr hopens)
  · have htwo : (['H', 'T'].filter isAlphanumeric).length = 2 := by decide +kernel
    rw [htwo] at hrun
    exact fun h => (hrun.1 h).elim (fun hne => hne rfl) hstays

end LiveDocs.Text
