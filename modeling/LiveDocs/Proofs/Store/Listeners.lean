import LiveDocs.Proofs.Request
import LiveDocs.Proofs.Store.Writes

/-!
# Listeners of a store

Listeners are attached by listen calls and released by detaching them; nothing else touches them.
Main statements: `keepsListeners_run`, a request that is no listen call keeps them;
`unwatched_of_ofSeed`, a seeded store has none.
-/

namespace LiveDocs

/-- The same listeners are attached, and as many were attached and released before. -/
structure Store.KeepsListeners (s s' : Store) : Prop where
  listeners : s'.listeners = s.listeners
  nextListener : s'.nextListener = s.nextListener
  detached : s'.detached = s.detached

theorem Store.KeepsListeners.refl (s : Store) : s.KeepsListeners s := ⟨rfl, rfl, rfl⟩

theorem Store.KeepsListeners.trans {s s' s'' : Store} (h : s.KeepsListeners s')
    (h' : s'.KeepsListeners s'') : s.KeepsListeners s'' :=
  ⟨h'.listeners.trans h.listeners, h'.nextListener.trans h.nextListener,
    h'.detached.trans h.detached⟩

theorem Request.keepsListeners_run {α : Type} {r : Request α} (hr : ¬ r.Listens) (s : Store) :
    s.KeepsListeners (r.run s).2 := by
  cases hs : s.failures with
  | cons e rest =>
    rw [run_of_failures_cons r hs]
    exact ⟨rfl, rfl, rfl⟩
  | nil =>
    cases r with
    | getDocument d source =>
      rw [run_getDocument hs]
      exact .refl s
    | getQuery q source =>
      rw [run_getQuery hs]
      exact .refl s
    | add c data =>
      rw [run, Store.add, Store.guarded_of_failures_nil hs]
      exact ⟨rfl, rfl, rfl⟩
    | set d data mode =>
      rw [run, Store.set, Store.guarded_of_failures_nil hs]
      cases mode with
      | replace => exact ⟨rfl, rfl, rfl⟩
      | merge => exact ⟨rfl, rfl, rfl⟩
      | fields paths =>
        simp only
        split <;> exact ⟨rfl, rfl, rfl⟩
    | update d data =>
      rw [run, Store.update, Store.guarded_of_failures_nil hs]
      split <;> exact ⟨rfl, rfl, rfl⟩
    | delete d =>
      rw [run, Store.delete, Store.guarded_of_failures_nil hs]
      split <;> exact ⟨rfl, rfl, rfl⟩
    | listen target box => exact absurd trivial hr

theorem Store.KeepsListeners.of_receive {s s' : Store} {box : Mailbox} {notice : Notice}
    (h : s.receive? box = some (notice, s')) : s.KeepsListeners s' := by
  rw [(receive?_eq_some h).2]
  exact ⟨rfl, rfl, rfl⟩

/-! ### Seeds -/

/-- Nobody has listened to the store yet. -/
structure Store.Unwatched (s : Store) : Prop where
  listeners : s.listeners = []
  nextListener : s.nextListener = 0
  detached : s.detached = 0

theorem Store.keepsListeners_seedCollections {collections : List (String × Json)} {s s' : Store}
    (h : seedCollections s collections = .ok s') : s.KeepsListeners s' := by
  rw [eq_of_seedCollections h]
  exact ⟨rfl, rfl, rfl⟩

/-- A store that was seeded has no listeners yet. -/
theorem Store.unwatched_of_ofSeed {seed : Json} {s : Store} (h : ofSeed seed = .ok s) :
    s.Unwatched := by
  cases seed with
  | object collections =>
    have hkeeps := keepsListeners_seedCollections h
    exact ⟨hkeeps.listeners, hkeeps.nextListener, hkeeps.detached⟩
  | _ => cases h

end LiveDocs
