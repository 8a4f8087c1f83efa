import LiveDocs.Proofs.Pass.Branches

/-!
# Passes that are alike

Two passes are `Alike` if they do the same to the client, record the same targets, and fail with the
same error or come to related results. The relation follows the parts of a pass, so two runs of the
executor on operations of the same form are compared step by step.
-/

namespace LiveDocs

namespace Pass

variable {α β γ δ : Type}

/-- Two passes do the same to the client and to the targets, and fail with the same error or come to
related results. -/
def Alike (R : α → β → Prop) (p : Pass α) (p' : Pass β) : Prop :=
  ∀ state, (∃ e state', p.run state = (.error e, state') ∧ p'.run state = (.error e, state')) ∨
    ∃ a b state', p.run state = (.ok a, state') ∧ p'.run state = (.ok b, state') ∧ R a b

theorem Alike.pure {R : α → β → Prop} {a : α} {b : β} (h : R a b) :
    Alike R (pure a : Pass α) (pure b) :=
  fun state => .inr ⟨a, b, state, rfl, rfl, h⟩

/-- A pass is like itself, and what all its results have is known of them. -/
theorem alike_self {P : α → Prop} {p : Pass α}
    (h : ∀ state a state', p.run state = (.ok a, state') → P a) :
    Alike (fun a b => a = b ∧ P b) p p := by
  intro state
  rcases hrun : p.run state with ⟨e | a, state'⟩
  · exact .inl ⟨e, state', rfl, rfl⟩
  · exact .inr ⟨a, a, state', rfl, rfl, rfl, h state a state' hrun⟩

theorem Alike.mono {R S : α → β → Prop} {p : Pass α} {p' : Pass β} (h : Alike R p p')
    (hRS : ∀ a b, R a b → S a b) : Alike S p p' :=
  fun state => (h state).imp_right fun ⟨a, b, state', hrun, hrun', hR⟩ =>
    ⟨a, b, state', hrun, hrun', hRS a b hR⟩

theorem Alike.symm {R : α → β → Prop} {p : Pass α} {p' : Pass β} (h : Alike R p p') :
    Alike (fun b a => R a b) p' p :=
  fun state => (h state).imp (fun ⟨e, state', hrun, hrun'⟩ => ⟨e, state', hrun', hrun⟩)
    fun ⟨a, b, state', hrun, hrun', hR⟩ => ⟨b, a, state', hrun', hrun, hR⟩

theorem Alike.bind {R : α → β → Prop} {S : γ → δ → Prop} {p : Pass α} {p' : Pass β}
    {f : α → Pass γ} {f' : β → Pass δ} (hp : Alike R p p')
    (hf : ∀ a b, R a b → Alike S (f a) (f' b)) : Alike S (p >>= f) (p' >>= f') := by
  intro state
  rcases hp state with ⟨e, state', hrun, hrun'⟩ | ⟨a, b, state', hrun, hrun', hR⟩
  · exact .inl ⟨e, state', run_bind_error hrun f, run_bind_error hrun' f'⟩
  · rw [run_bind_ok hrun, run_bind_ok hrun']
    exact hf a b hR state'

/-- Traversals of one list are alike if they are at each item. -/
theorem Alike.mapM {R : β → γ → Prop} {f : α → Pass β} {f' : α → Pass γ} {items : List α}
    (h : ∀ item ∈ items, Alike R (f item) (f' item)) :
    Alike (List.Forall₂ R) (items.mapM f) (items.mapM f') := by
  induction items with
  | nil =>
    rw [List.mapM_nil, List.mapM_nil]
    exact .pure .nil
  | cons item rest ih =>
    rw [List.mapM_cons, List.mapM_cons]
    exact (h item List.mem_cons_self).bind fun b c hbc =>
      (ih fun other hother => h other (List.mem_cons_of_mem _ hother)).bind fun bs cs hbcs =>
        .pure (.cons hbc hbcs)

end Pass

/-- Operations whose passes are alike, up to a change of the response, are executed alike. -/
theorem Executor.execute_of_alike {config config' : Config} {o o' : Operation}
    {change : Json → Json}
    (h : Pass.Alike (fun response response' => response = change response') (pass config o)
      (pass config' o')) (c : Client) :
    execute config o c =
      { execute config' o' c with response := (execute config' o' c).response.map change } := by
  have hexecute : ∀ (config : Config) (o : Operation), execute config o c =
      ⟨((pass config o).run ⟨c, []⟩).1, ((pass config o).run ⟨c, []⟩).2.targets,
        ((pass config o).run ⟨c, []⟩).2.client⟩ := fun _ _ => rfl
  rw [hexecute, hexecute]
  rcases h ⟨c, []⟩ with ⟨e, state, hrun, hrun'⟩ | ⟨response, response', state, hrun, hrun', rfl⟩
  · rw [hrun, hrun']
    rfl
  · rw [hrun, hrun']
    rfl

end LiveDocs
