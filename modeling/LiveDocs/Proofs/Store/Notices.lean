import LiveDocs.Proofs.Store.Listeners
import Mathlib.Data.List.Nodup

/-!
# Notices of writes

A write changes what is read at the targets that it affects, and only there; and each listener of an
affected target gets one notice of it. Both follow from what a write comes to: it stores or removes
one document, and then goes through the listeners once. That a listener is met once is owed to the
ids: a store gives each listener an id of its own, over any run. Main statements: `Reachable.nodup`,
no two listeners of a store that was ever reached have one id; `told_of_run`, what a write changes
is announced, once to each listener.
-/

namespace LiveDocs

namespace Store

variable {α : Type} {s s' : Store}

/-! ### Stores that are ever reached -/

/-- The stores that come of an empty or a seeded one by requests, whatever their answers, by notices
that are collected or given up, by listeners that are detached, and by what is set up from outside:
pending values and failures. -/
inductive Reachable : Store → Prop where
  | empty : Reachable .empty
  | seed {seed : Json} {s : Store} (h : ofSeed seed = .ok s) : Reachable s
  | request {α : Type} {s : Store} (h : Reachable s) (r : Request α) : Reachable (r.run s).2
  | receive {s s' : Store} {box : Mailbox} {notice : Notice} (h : Reachable s)
      (hnotice : s.receive? box = some (notice, s')) : Reachable s'
  | clear {s : Store} (h : Reachable s) (box : Mailbox) : Reachable (s.clear box)
  | detach {s : Store} (h : Reachable s) (id : Nat) : Reachable (s.detach id)
  | setPending {s : Store} (h : Reachable s) (d : DocumentRef) (field : String)
      (v : PendingValue) : Reachable (s.setPending d field v)
  | failNext {s : Store} (h : Reachable s) (e : StoreError) : Reachable (s.failNext e)
  | failListeners {s : Store} (h : Reachable s) (e : StoreError) : Reachable (s.failListeners e)

/-- The ids of the listeners were all given out, each to one of them. -/
structure Numbered (s : Store) : Prop where
  nodup : (s.listeners.map (·.id)).Nodup
  lt : ∀ l ∈ s.listeners, l.id < s.nextListener

theorem Numbered.of_keeps (h : s.Numbered) (hkeeps : s.KeepsListeners s') : s'.Numbered := by
  refine ⟨?_, ?_⟩
  · rw [hkeeps.listeners]
    exact h.nodup
  · rw [hkeeps.listeners, hkeeps.nextListener]
    exact h.lt

theorem Numbered.of_unwatched (h : s.listeners = []) : s.Numbered := by
  refine ⟨?_, ?_⟩
  · rw [h]
    exact .nil
  · rw [h]
    exact fun l hl => by cases hl

/-- A listener that is attached gets an id that none has. -/
theorem Numbered.run (h : s.Numbered) (r : Request α) : (r.run s).2.Numbered := by
  by_cases hlistens : r.Listens
  · cases r with
    | listen target box =>
      cases hs : s.failures with
      | cons e rest =>
        rw [Request.run_of_failures_cons _ hs]
        exact ⟨h.nodup, h.lt⟩
      | nil =>
        simp only [Request.run, listen, guarded_of_failures_nil hs]
        refine ⟨?_, fun l hl => ?_⟩
        · rw [List.map_append, List.map_singleton, List.nodup_append]
          refine ⟨h.nodup, List.nodup_singleton _, fun id hid id' hid' => ?_⟩
          obtain ⟨l, hl, rfl⟩ := List.mem_map.1 hid
          obtain rfl := List.mem_singleton.1 hid'
          exact Nat.ne_of_lt (h.lt l hl)
        · rcases List.mem_append.1 hl with hl | hl
          · exact Nat.lt_succ_of_lt (h.lt l hl)
          · obtain rfl := List.mem_singleton.1 hl
            exact Nat.lt_succ_self _
    | getDocument | getQuery | add | set | update | delete => exact hlistens.elim
  · exact h.of_keeps (Request.keepsListeners_run hlistens s)

theorem Reachable.numbered (h : s.Reachable) : s.Numbered := by
  induction h with
  | empty => exact .of_unwatched rfl
  | seed h => exact .of_unwatched (unwatched_of_ofSeed h).listeners
  | request _ r ih => exact ih.run r
  | receive _ hnotice ih => exact ih.of_keeps (.of_receive hnotice)
  | detach _ id ih =>
    refine ⟨ih.nodup.sublist (List.filter_sublist.map _), fun l hl => ?_⟩
    exact ih.lt l (List.mem_of_mem_filter hl)
  | clear | setPending | failNext | failListeners =>
    rename_i ih
    exact ⟨ih.nodup, ih.lt⟩

/-- No two listeners of a store that was ever reached have one id. -/
theorem Reachable.nodup (h : s.Reachable) : (s.listeners.map (·.id)).Nodup := h.numbered.nodup

end Store

/-! ### What is announced -/

/-- The notice that a listener gets of a write. -/
def Listener.notice (l : Listener) : Mailbox × Notice := (l.mailbox, .ok l.target)

namespace Store

variable {α : Type} {s s' : Store}

/-- The mail after a write is what waited before, and a notice for each listener that it affects. -/
theorem mail_of_run {r : Request α} {a : α} (h : r.run s = (.ok a, s')) {d : DocumentRef}
    (hd : r.wrote? a = some d) :
    (r.TakesEffect s → s'.mail =
      s.mail ++ (s.listeners.filter (·.target.isAffectedBy d)).map Listener.notice) ∧
    (¬ r.TakesEffect s → s'.mail = s.mail) := by
  rcases run_of_wrote (Request.failures_eq_nil_of_run h) h hd with
    ⟨htakes, generated, c, -, rfl⟩ | ⟨hnot, rfl⟩
  · exact ⟨fun _ => rfl, fun hnot => absurd htakes hnot⟩
  · exact ⟨fun htakes => absurd htakes hnot, fun _ => rfl⟩

/-- Whatever is requested and however it is answered, the mail gets notices of changes only,
each for an attached listener. -/
theorem exists_mail_run (r : Request α) (s : Store) :
    ∃ told : List Listener, told.Sublist s.listeners ∧
      (r.run s).2.mail = s.mail ++ told.map Listener.notice := by
  have hsilent : ∃ told : List Listener, told.Sublist s.listeners ∧
      s.mail = s.mail ++ told.map Listener.notice :=
    ⟨[], List.nil_sublist _, (List.append_nil _).symm⟩
  cases hs : s.failures with
  | cons e rest =>
    rw [Request.run_of_failures_cons r hs]
    exact hsilent
  | nil =>
    cases r with
    | getDocument d source =>
      rw [Request.run_getDocument hs]
      exact hsilent
    | getQuery q source =>
      rw [Request.run_getQuery hs]
      exact hsilent
    | add c data =>
      rw [Request.run, Store.add, guarded_of_failures_nil hs]
      exact ⟨_, List.filter_sublist, rfl⟩
    | set d data mode =>
      rw [Request.run, Store.set, guarded_of_failures_nil hs]
      cases mode with
      | replace | merge => exact ⟨_, List.filter_sublist, rfl⟩
      | fields paths =>
        simp only
        split
        · exact ⟨_, List.filter_sublist, rfl⟩
        · exact hsilent
    | update d data =>
      rw [Request.run, Store.update, guarded_of_failures_nil hs]
      split
      · exact hsilent
      · exact ⟨_, List.filter_sublist, rfl⟩
    | delete d =>
      rw [Request.run, Store.delete, guarded_of_failures_nil hs]
      split
      · exact hsilent
      · exact ⟨_, List.filter_sublist, rfl⟩
    | listen target box =>
      rw [Request.run, Store.listen, guarded_of_failures_nil hs]
      exact hsilent

/-- A read of a target that a write does not affect is answered as before, also if it is refused. -/
theorem answer_of_not_affected {r : Request α} {a : α} (h : r.run s = (.ok a, s'))
    {d : DocumentRef} (hd : r.wrote? a = some d) {target : ListenTarget}
    (htarget : target.isAffectedBy d = false) {β : Type} {q : Request β} (hq : q.Reads)
    (hreads : q.call.target? = some target) : (q.run s').1 = (q.run s).1 := by
  have hfailures := Request.failures_eq_nil_of_run h
  rcases run_of_wrote hfailures h hd with ⟨-, generated, c, hc, rfl⟩ | ⟨-, rfl⟩
  · refine q.run_of_readsAlike hq hfailures hfailures rfl fun other hother => ?_
    obtain rfl : target = other := Option.some.inj (hreads.symm.trans hother)
    exact (ListenTarget.readsAlike_put hc htarget).trans (.of_collections rfl target)
  · rfl

theorem countP_id_eq {listeners told : List Listener} (htold : told.Sublist listeners)
    (hnodup : (listeners.map (·.id)).Nodup) {l : Listener} (hl : l ∈ told) :
    told.countP (·.id == l.id) = 1 := by
  have hids : (told.map (·.id)).count l.id = 1 :=
    List.count_eq_one_of_mem (hnodup.sublist (htold.map _)) (List.mem_map_of_mem hl)
  rwa [List.count, List.countP_map] at hids

/-- What a write changes is announced, and a write changes only what it names. After a write that
succeeds, a read of a target that it does not affect is answered as before. And the mail that the
write adds is a notice for some of the attached listeners: for each one exactly once if something
was written or removed and the write affects its target, and otherwise not at all. -/
theorem told_of_run (hs : s.Reachable) {r : Request α} {a : α} (h : r.run s = (.ok a, s'))
    {d : DocumentRef} (hd : r.wrote? a = some d) :
    (∀ target : ListenTarget, target.isAffectedBy d = false →
      ∀ {β : Type} (q : Request β), q.Reads → q.call.target? = some target →
        (q.run s').1 = (q.run s).1) ∧
    ∃ told : List Listener, told.Sublist s.listeners ∧
      s'.mail = s.mail ++ told.map Listener.notice ∧
      ∀ l ∈ s.listeners,
        (r.TakesEffect s ∧ l.target.isAffectedBy d = true →
          told.countP (·.id == l.id) = 1) ∧
        (¬ (r.TakesEffect s ∧ l.target.isAffectedBy d = true) →
          told.countP (·.id == l.id) = 0) := by
  refine ⟨fun target htarget β q hq hreads => answer_of_not_affected h hd htarget hq hreads, ?_⟩
  obtain ⟨hmail, hsilent⟩ := mail_of_run h hd
  by_cases htakes : r.TakesEffect s
  · have hsublist : (s.listeners.filter (·.target.isAffectedBy d)).Sublist s.listeners :=
      List.filter_sublist
    refine ⟨_, hsublist, hmail htakes, fun l hl => ⟨fun haffected => ?_, fun hnot => ?_⟩⟩
    · exact countP_id_eq hsublist hs.nodup (List.mem_filter.2 ⟨hl, haffected.2⟩)
    · -- the id leads to this listener only, and it is not affected
      refine List.countP_eq_zero.2 fun l' hl' hid => hnot ⟨htakes, ?_⟩
      obtain ⟨hmem, haffected⟩ := List.mem_filter.1 hl'
      obtain rfl : l' = l := List.inj_on_of_nodup_map hs.nodup hmem hl (beq_iff_eq.1 hid)
      exact haffected
  · refine ⟨[], List.nil_sublist _, ?_, fun l _ => ⟨fun haffected => ?_, fun _ => rfl⟩⟩
    · rw [hsilent htakes, List.map_nil, List.append_nil]
    · exact absurd haffected.1 htakes

/-- The document of a user. -/
def ada : DocumentRef := .ofText "users/ada"

/-- The document of another user. -/
def bob : DocumentRef := .ofText "users/bob"

/-- One listener for all users. -/
def usersListener : Listener := ⟨0, .query (.all (.ofText "users")), 0⟩

/-- Another one for a single user. -/
def bobListener : Listener := ⟨1, .document bob, 0⟩

/-- A store on which the two listen, without documents. -/
def watchedStore : Store :=
  ((Request.listen bobListener.target 0).run
    ((Request.listen usersListener.target 0).run .empty).2).2

theorem told_of_run_ada :
    watchedStore.Reachable ∧ ∃ s',
      (Request.set ada [] .replace).run watchedStore = (.ok (), s') ∧
      ((Request.getDocument bob .default).run s').1 =
        ((Request.getDocument bob .default).run watchedStore).1 ∧
      ∃ told : List Listener, s'.mail = told.map Listener.notice ∧
        told.countP (·.id == usersListener.id) = 1 ∧ told.countP (·.id == bobListener.id) = 0 := by
  have hreachable : watchedStore.Reachable := (Reachable.empty.request _).request _
  have hrun : (Request.set ada [] .replace).run watchedStore = (.ok (), _) := rfl
  obtain ⟨hreads, told, -, hmail, hcount⟩ := told_of_run hreachable hrun rfl
  refine ⟨hreachable, _, hrun, ?_, told, hmail, ?_, ?_⟩
  · exact hreads (.document bob) (by decide +kernel) (.getDocument bob .default) trivial rfl
  · exact (hcount usersListener List.mem_cons_self).1 ⟨trivial, by decide +kernel⟩
  · refine (hcount bobListener (List.mem_cons_of_mem _ List.mem_cons_self)).2 fun haffected => ?_
    exact absurd haffected.2 (by decide +kernel)

end Store

end LiveDocs
