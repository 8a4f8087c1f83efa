import LiveDocs.Proofs.Store.Seeds
import Mathlib.Logic.Function.Basic

/-!
# Added documents

The id of an added document comes from a counter, which does not look at the ids that are there. It
never repeats itself, so that documents that were added never meet; but a seed or a `set` may put a
document under an id that the counter has yet to reach. Main statements: `generatedId_injective`,
the counter does not repeat itself; `document?_afterAll_iff`, when there is a document under an id
that is yet to be generated; `add_new_iff`, when an added document is a new one;
`add_replaces_document`, a run in which it is not.
-/

namespace LiveDocs

/-- The digits of a generated id, read as a number, are the count it was made from. -/
theorem Store.ofDigitChars_generatedId (n : Nat) :
    Nat.ofDigitChars 10 (generatedId n).toList 0 = n := by
  rw [toList_generatedId, Nat.ofDigitChars_append, Nat.ofDigitChars_replicate_zero, Nat.mul_zero,
    Nat.ofDigitChars_ten_toDigits]

theorem Store.generatedId_injective : Function.Injective Store.generatedId := by
  intro m n h
  calc
    m = Nat.ofDigitChars 10 (generatedId m).toList 0 := (ofDigitChars_generatedId m).symm
    _ = Nat.ofDigitChars 10 (generatedId n).toList 0 := by rw [h]
    _ = n := ofDigitChars_generatedId n

/-- A request, whatever the type of its answer. -/
structure Asked where
  {α : Type}
  request : Request α

/-- There is a document at a reference after a request, given whether there was one before; a
document that is added there is left out. -/
def Request.Leaves {α : Type} (d : DocumentRef) (held : Prop) : Request α → Prop
  | .set e _ _ => e = d ∨ held
  | .delete e => e ≠ d ∧ held
  | .getDocument _ _ | .getQuery _ _ | .add _ _ | .update _ _ | .listen _ _ => held

/-- There is a document at a reference after several requests. -/
def LeavesAll (requests : List Asked) (d : DocumentRef) (held : Prop) : Prop :=
  requests.foldl (fun held asked => asked.request.Leaves d held) held

namespace Store

variable {s s' s₀ : Store} {d : DocumentRef}

/-- The store after several requests, whatever their answers. -/
def afterAll (s : Store) (requests : List Asked) : Store :=
  requests.foldl (fun s asked => (asked.request.run s).2) s

/-! ### One request -/

/-- The document that a `set` names is there afterwards, also if a listed field was missing. -/
theorem exists_of_run_set (hs : s.failures = []) (d : DocumentRef) (data : Members)
    (mode : WriteMode) : ∃ written, ∀ e,
      ((Request.set d data mode).run s).2.document? e = (s.putDocument d written).document? e := by
  simp only [Request.run, set, guarded_of_failures_nil hs]
  cases mode with
  | replace => exact ⟨_, fun e => rfl⟩
  | merge => exact ⟨_, fun e => rfl⟩
  | fields paths =>
    simp only
    split <;> exact ⟨_, fun e => rfl⟩

/-- A request leaves documents where it says, apart from one under an id that it generates. -/
theorem document?_run_iff {α : Type} {r : Request α} (hs : s.failures = [])
    (hnew : ∀ (c : CollectionRef) (n : Nat), s.generated < n → n ≤ (r.run s).2.generated →
      c.doc (generatedId n) ≠ d) :
    (r.run s).2.document? d ≠ none ↔ r.Leaves d (s.document? d ≠ none) := by
  cases r with
  | getDocument e source => rw [Request.run_getDocument hs, Request.Leaves]
  | getQuery q source => rw [Request.run_getQuery hs, Request.Leaves]
  | add c data =>
    rw [run_add hs] at hnew
    have hne : c.doc (generatedId (s.generated + 1)) ≠ d :=
      hnew c (s.generated + 1) (Nat.lt_succ_self _) (Nat.le_refl _)
    have hsame := document?_putDocument_of_ne { s with generated := s.generated + 1 } hne.symm data
    rw [run_add hs, Request.Leaves]
    exact iff_of_eq (congrArg (· ≠ none) hsame)
  | set e data mode =>
    obtain ⟨written, hwritten⟩ := exists_of_run_set hs e data mode
    rw [hwritten, Request.Leaves]
    by_cases he : e = d
    · subst he
      simp [document?_putDocument_self]
    · simp [document?_putDocument_of_ne s (Ne.symm he), he]
  | update e data =>
    simp only [Request.run, update, guarded_of_failures_nil hs, Request.Leaves]
    split
    · rfl
    · rename_i current hcurrent
      change (s.putDocument e _).document? d ≠ none ↔ _
      by_cases he : e = d
      · subst he
        simp [document?_putDocument_self, hcurrent]
      · rw [document?_putDocument_of_ne s (Ne.symm he)]
  | delete e =>
    simp only [Request.run, delete, guarded_of_failures_nil hs, Request.Leaves]
    split
    · rename_i hnone
      refine ⟨fun hheld => ⟨?_, hheld⟩, And.right⟩
      rintro rfl
      exact hheld hnone
    · change (s.put e.parent.path _).document? d ≠ none ↔ _
      by_cases he : e = d
      · subst he
        simp [Collection.get?_erase_self]
      · rw [document?_put_of_ne (Ne.symm he) fun id hid => Collection.get?_erase_of_ne _ hid]
        simp [he]
  | listen target box =>
    simp only [Request.run, listen, guarded_of_failures_nil hs, Request.Leaves]
    rfl

/-- A store that was not told to fail is not told so by a request, and its count of generated ids
does not go back. -/
theorem keeps_run {α : Type} (r : Request α) (hs : s.failures = []) :
    (r.run s).2.failures = [] ∧ s.generated ≤ (r.run s).2.generated := by
  cases r with
  | getDocument e source =>
    rw [Request.run_getDocument hs]
    exact ⟨hs, Nat.le_refl _⟩
  | getQuery q source =>
    rw [Request.run_getQuery hs]
    exact ⟨hs, Nat.le_refl _⟩
  | add c data =>
    rw [run_add hs]
    exact ⟨hs, Nat.le_succ _⟩
  | set e data mode =>
    rw [Request.run, set, guarded_of_failures_nil hs]
    cases mode with
    | replace => exact ⟨hs, Nat.le_refl _⟩
    | merge => exact ⟨hs, Nat.le_refl _⟩
    | fields paths =>
      simp only
      split <;> exact ⟨hs, Nat.le_refl _⟩
  | update e data =>
    rw [Request.run, update, guarded_of_failures_nil hs]
    split <;> exact ⟨hs, Nat.le_refl _⟩
  | delete e =>
    rw [Request.run, delete, guarded_of_failures_nil hs]
    split <;> exact ⟨hs, Nat.le_refl _⟩
  | listen target box =>
    rw [Request.run, listen, guarded_of_failures_nil hs]
    exact ⟨hs, Nat.le_refl _⟩

/-! ### Several requests -/

theorem keeps_afterAll (requests : List Asked) (hs : s.failures = []) :
    (s.afterAll requests).failures = [] ∧ s.generated ≤ (s.afterAll requests).generated := by
  induction requests generalizing s with
  | nil => exact ⟨hs, Nat.le_refl _⟩
  | cons asked rest ih =>
    obtain ⟨hfailures, hgenerated⟩ := keeps_run asked.request hs
    obtain ⟨hfailures', hgenerated'⟩ := ih hfailures
    exact ⟨hfailures', Nat.le_trans hgenerated hgenerated'⟩

/-- Under an id that is yet to be generated there is a document only if a request left one there.
-/
theorem document?_afterAll_iff (requests : List Asked) (hs : s.failures = []) {c : CollectionRef}
    {n : Nat} (hn : (s.afterAll requests).generated < n) :
    (s.afterAll requests).document? (c.doc (generatedId n)) ≠ none ↔
      LeavesAll requests (c.doc (generatedId n)) (s.document? (c.doc (generatedId n)) ≠ none) := by
  induction requests generalizing s with
  | nil => rfl
  | cons asked rest ih =>
    obtain ⟨hfailures, -⟩ := keeps_run asked.request hs
    have hlater : (asked.request.run s).2.generated < n :=
      Nat.lt_of_le_of_lt (keeps_afterAll rest hfailures).2 hn
    have hstep : (asked.request.run s).2.document? (c.doc (generatedId n)) ≠ none ↔
        asked.request.Leaves (c.doc (generatedId n))
          (s.document? (c.doc (generatedId n)) ≠ none) := by
      refine document?_run_iff hs fun c' k _ hk hsame => ?_
      -- the counter has not come to the id yet
      have hid : (c'.doc (generatedId k)).id = (c.doc (generatedId n)).id :=
        congrArg DocumentRef.id hsame
      rw [c'.id_doc (isSegment_generatedId k), c.id_doc (isSegment_generatedId n)] at hid
      have hkn : k = n := generatedId_injective hid
      omega
    have hrest := ih hfailures hn
    rw [propext hstep] at hrest
    exact hrest

/-- An added document lies in its collection and holds its data, and all other documents are as
before. It takes the place of an earlier one exactly if the seed or a `set` put a document under
the id that the counter has come to, and no later request has deleted it. -/
theorem add_new_iff {seed : Json} {requests : List Asked} {c : CollectionRef} {data : Members}
    (hseed : ofSeed seed = .ok s₀)
    (hadd : (Request.add c data).run (s₀.afterAll requests) = (.ok d, s)) :
    d.parent = c ∧ s.document? d = some data ∧
      (∀ e, e ≠ d → s.document? e = (s₀.afterAll requests).document? e) ∧
      ((s₀.afterAll requests).document? d = none ↔
        ¬ LeavesAll requests d (s₀.document? d ≠ none)) := by
  have hs₀ : s₀.failures = [] := by
    cases seed with
    | object collections => exact failures_of_seedCollections hseed
    | null | bool | number | string | array => cases hseed
  obtain ⟨hs, -⟩ := keeps_afterAll requests hs₀
  rw [run_add hs] at hadd
  obtain ⟨hanswer, rfl⟩ := Prod.mk.inj hadd
  obtain rfl := Except.ok.inj hanswer
  refine ⟨c.parent_doc (isSegment_generatedId _), ?_, fun e he => ?_, ?_⟩
  · exact document?_putDocument_self { s₀.afterAll requests with generated := _ } _ data
  · exact document?_putDocument_of_ne { s₀.afterAll requests with generated := _ } he data
  · rw [← document?_afterAll_iff requests hs₀ (Nat.lt_succ_self _), ne_eq, not_not]

/-- A seed with a document under the second generated id. -/
def numberedSeed : Json :=
  .object [("users", .object [("00000000000000000002", .object [("name", .string "Ada")])])]

/-- The store that holds it. -/
def numberedStore : Store :=
  empty.put (.parse "users")
    (Collection.empty.insert "00000000000000000002" [("name", .string "Ada")])

/-- The first generated id is given away, and the second one is made free. -/
def freeingRequests : List Asked :=
  [⟨.add (.ofText "users") []⟩, ⟨.delete (.ofText "users/00000000000000000002")⟩]

theorem add_new_iff_freeing :
    ofSeed numberedSeed = .ok numberedStore ∧
      ∃ s, (Request.add (.ofText "users") []).run (numberedStore.afterAll freeingRequests) =
          (.ok (.ofText "users/00000000000000000002"), s) ∧
        (numberedStore.afterAll freeingRequests).document?
          (.ofText "users/00000000000000000002") = none := by
  have hseed : ofSeed numberedSeed = .ok numberedStore := rfl
  have hadded : ∃ s, (Request.add (.ofText "users") []).run
      (numberedStore.afterAll freeingRequests) =
        (.ok (.ofText "users/00000000000000000002"), s) := ⟨_, rfl⟩
  obtain ⟨s, hadd⟩ := hadded
  obtain ⟨-, -, -, hnew⟩ := add_new_iff hseed hadd
  refine ⟨hseed, s, hadd, hnew.2 ?_⟩
  -- the last request deletes what the seed had put there
  rintro ⟨hne, -⟩
  exact hne rfl

/-- The first id that will be generated is in use already. -/
def takenRequests : List Asked :=
  [⟨.set (.ofText "users/00000000000000000001") [("name", .string "Ada")] .replace⟩]

/-- The added document takes the place of the one that is there. -/
theorem add_replaces_document :
    ofSeed (.object []) = .ok empty ∧
      ∃ s, (Request.add (.ofText "users") [("name", .string "Bob")]).run
          (empty.afterAll takenRequests) = (.ok (.ofText "users/00000000000000000001"), s) ∧
        (empty.afterAll takenRequests).document? (.ofText "users/00000000000000000001") =
          some [("name", .string "Ada")] ∧
        s.document? (.ofText "users/00000000000000000001") = some [("name", .string "Bob")] :=
  ⟨rfl, _, rfl, rfl, rfl⟩

end Store

end LiveDocs
