import LiveDocs.Proofs.Session.Run
import Mathlib.Data.List.Nodup

/-!
# Listeners of a session

The streams of a session share the listeners of one store. A journal tells which stream attached
and released which listener; the ones that were attached and not released are held. Main
statement: `conserved_of_run`, in every run the listeners of the store are the held ones, none is
released twice or by another stream, and a stream that has ended holds none.
-/

namespace LiveDocs

/-! ### Registrations -/

/-- The listener that an event attaches. -/
def Event.attached? : Event → Option Nat
  | .attached id => some id
  | _ => none

/-- The listener that an event releases. -/
def Event.released? : Event → Option Nat
  | .released id => some id
  | _ => none

namespace Journal

/-- The listeners that were attached, each with its stream. -/
def attached (j : Journal) : List (StreamId × Nat) :=
  j.filterMap fun (k, event) => event.attached?.map (k, ·)

/-- The listeners that were released, each with the stream that did it. -/
def released (j : Journal) : List (StreamId × Nat) :=
  j.filterMap fun (k, event) => event.released?.map (k, ·)

/-- The listeners that were attached and not released. -/
def held (j : Journal) : List (StreamId × Nat) := j.attached.filter (· ∉ j.released)

/-- The listeners that a stream holds. -/
def heldBy (j : Journal) (k : StreamId) : List Nat := (j.held.filter (·.1 == k)).map (·.2)

@[simp] theorem attached_append (j j' : Journal) :
    (j ++ j').attached = j.attached ++ j'.attached := List.filterMap_append

@[simp] theorem released_append (j j' : Journal) :
    (j ++ j').released = j.released ++ j'.released := List.filterMap_append

theorem attached_on (k : StreamId) (events : List Event) :
    (on k events).attached = (events.filterMap Event.attached?).map (k, ·) := by
  rw [attached, on, List.filterMap_map, List.map_filterMap]
  rfl

theorem released_on (k : StreamId) (events : List Event) :
    (on k events).released = (events.filterMap Event.released?).map (k, ·) := by
  rw [released, on, List.filterMap_map, List.map_filterMap]
  rfl

theorem mem_heldBy {j : Journal} {k : StreamId} {id : Nat} :
    id ∈ j.heldBy k ↔ (k, id) ∈ j.held := by
  rw [heldBy, List.mem_map]
  constructor
  · rintro ⟨⟨k', id'⟩, hmem, rfl⟩
    obtain ⟨hheld, hk⟩ := List.mem_filter.1 hmem
    obtain rfl : k' = k := beq_iff_eq.1 hk
    exact hheld
  · intro h
    exact ⟨(k, id), List.mem_filter.2 ⟨h, beq_self_eq_true k⟩, rfl⟩

end Journal

open Journal

/-- What happens on a stream has no effect on what the others hold. -/
theorem Journal.heldBy_on_of_ne {k k' : StreamId} (h : k ≠ k') (j : Journal)
    (events : List Event) : (j ++ on k events).heldBy k' = j.heldBy k' := by
  have hnot : ∀ {ids : List Nat} {r : StreamId × Nat}, r ∈ ids.map (k, ·) → r.1 ≠ k' := by
    intro ids r hr
    obtain ⟨id, -, rfl⟩ := List.mem_map.1 hr
    exact h
  -- neither what is attached nor what is released belongs to the other stream
  have hnew : (on k events).attached.filter (fun r => r.1 == k' &&
      decide (r ∉ (j ++ on k events).released)) = [] :=
    List.filter_eq_nil_iff.2 fun r hr => by
      rw [attached_on] at hr
      simp [hnot hr]
  have hold : ∀ r ∈ j.attached, (r.1 == k' && decide (r ∉ (j ++ on k events).released)) =
      (r.1 == k' && decide (r ∉ j.released)) := by
    intro r _
    by_cases hk : r.1 = k'
    · have hmem : r ∉ (on k events).released := fun hmem => by
        rw [released_on] at hmem
        exact hnot hmem hk
      simp [hmem]
    · rw [beq_false_of_ne hk, Bool.false_and, Bool.false_and]
  rw [heldBy, heldBy, held, held, List.filter_filter, List.filter_filter, attached_append,
    List.filter_append, hnew, List.append_nil, List.filter_congr hold]

/-! ### Accounts -/

/-- A journal accounts for the listeners of a store. -/
structure Accounts (j : Journal) (s : Store) : Prop where
  ids : j.attached.map (·.2) = List.range s.nextListener
  released_nodup : j.released.Nodup
  released_attached : ∀ r ∈ j.released, r ∈ j.attached
  listeners : s.listeners.map (·.id) = j.held.map (·.2)
  detached : s.detached = j.released.length

namespace Accounts

variable {j j' : Journal} {s s' : Store}

theorem of_keeps (h : Accounts j s) (hkeeps : s.KeepsListeners s')
    (hattached : j'.attached = []) (hreleased : j'.released = []) : Accounts (j ++ j') s' := by
  have ha : (j ++ j').attached = j.attached := by rw [attached_append, hattached, List.append_nil]
  have hr : (j ++ j').released = j.released := by rw [released_append, hreleased, List.append_nil]
  have hheld : (j ++ j').held = j.held := by rw [held, ha, hr, held]
  constructor
  · rw [ha, hkeeps.nextListener]
    exact h.ids
  · rw [hr]
    exact h.released_nodup
  · rw [ha, hr]
    exact h.released_attached
  · rw [hheld, hkeeps.listeners]
    exact h.listeners
  · rw [hr, hkeeps.detached]
    exact h.detached

theorem attached_nodup (h : Accounts j s) : (j.attached.map (·.2)).Nodup := by
  rw [h.ids]
  exact List.nodup_range

/-- The id of the next listener is new. -/
theorem not_mem_attached (h : Accounts j s) (k : StreamId) :
    (k, s.nextListener) ∉ j.attached := by
  intro hmem
  have hid : s.nextListener ∈ List.range s.nextListener := by
    rw [← h.ids]
    exact List.mem_map_of_mem hmem
  exact Nat.lt_irrefl _ (List.mem_range.1 hid)

theorem held_attach (h : Accounts j s) (k : StreamId) :
    (j ++ on k [.attached s.nextListener]).held = j.held ++ [(k, s.nextListener)] := by
  have hreleased : (k, s.nextListener) ∉ j.released := fun hmem =>
    h.not_mem_attached k (h.released_attached _ hmem)
  have ha : (on k [.attached s.nextListener]).attached = [(k, s.nextListener)] := rfl
  have hr : (on k [.attached s.nextListener]).released = [] := rfl
  rw [held, attached_append, released_append, ha, hr, List.append_nil, List.filter_append, held,
    List.filter_cons_of_pos (by simpa using hreleased), List.filter_nil]

/-- Attaching one more listener is accounted for. -/
theorem attach (h : Accounts j s) (k : StreamId) (target : ListenTarget) (box : Mailbox) :
    Accounts (j ++ on k [.attached s.nextListener])
      { s with
        listeners := s.listeners ++ [⟨s.nextListener, target, box⟩]
        nextListener := s.nextListener + 1 } := by
  have ha : (j ++ on k [.attached s.nextListener]).attached =
      j.attached ++ [(k, s.nextListener)] := attached_append _ _
  have hr : (j ++ on k [.attached s.nextListener]).released = j.released := by
    rw [released_append]
    exact List.append_nil _
  constructor
  · rw [ha, List.map_append, h.ids, List.range_succ]
    rfl
  · rw [hr]
    exact h.released_nodup
  · rw [ha, hr]
    exact fun r hr => List.mem_append_left _ (h.released_attached r hr)
  · rw [h.held_attach k, List.map_append, List.map_append, h.listeners]
    rfl
  · rw [hr]
    exact h.detached

theorem held_nodup (h : Accounts j s) : (j.held.map (·.2)).Nodup :=
  h.attached_nodup.sublist (List.filter_sublist.map _)

/-- Every listener has one stream. -/
theorem eq_of_mem_held (h : Accounts j s) {k k' : StreamId} {id : Nat} (hk : (k, id) ∈ j.held)
    (hk' : (k', id) ∈ j.held) : k = k' :=
  congrArg Prod.fst (List.inj_on_of_nodup_map h.held_nodup hk hk' rfl)

end Accounts

/-! ### Releasing -/

theorem Journal.released_heldBy (j : Journal) (k : StreamId) :
    (on k ((j.heldBy k).map .released)).released = j.held.filter (·.1 == k) := by
  have hids : ((j.heldBy k).map Event.released).filterMap Event.released? = j.heldBy k := by
    rw [List.filterMap_map]
    exact List.filterMap_some
  rw [released_on, hids, heldBy, List.map_map]
  refine (List.map_congr_left fun r hr => ?_).trans (List.map_id _)
  obtain ⟨k', id⟩ := r
  obtain rfl : k' = k := beq_iff_eq.1 (List.mem_filter.1 hr).2
  rfl

theorem Journal.attached_heldBy (j : Journal) (k : StreamId) :
    (on k ((j.heldBy k).map .released)).attached = [] := by
  have hids : ((j.heldBy k).map Event.released).filterMap Event.attached? = [] := by
    rw [List.filterMap_map]
    exact List.filterMap_none _
  rw [attached_on, hids, List.map_nil]

/-- After a stream has released its listeners the ones of the other streams are still held. -/
theorem Journal.held_release (j : Journal) (k : StreamId) :
    (j ++ on k ((j.heldBy k).map .released)).held = j.held.filter (·.1 != k) := by
  have hheld : (j ++ on k ((j.heldBy k).map .released)).held =
      j.attached.filter (· ∉ j.released ++ j.held.filter (·.1 == k)) := by
    rw [held, attached_append, released_append, attached_heldBy, released_heldBy, List.append_nil]
  have hothers : j.held.filter (·.1 != k) =
      j.attached.filter fun r => r.1 != k && decide (r ∉ j.released) := by
    rw [held, List.filter_filter]
  rw [hheld, hothers]
  refine List.filter_congr fun r hr => ?_
  by_cases hreleased : r ∈ j.released
  · simp [hreleased]
  · by_cases hk : r.1 = k <;> simp [held, hreleased, hk, hr]

/-- Releasing all listeners that a stream holds is accounted for. -/
theorem Accounts.release {j : Journal} {s : Store} (h : Accounts j s) (k : StreamId)
    (box : Mailbox) :
    Accounts (j ++ on k ((j.heldBy k).map .released))
      ((s.detachAll (j.heldBy k)).clear box) := by
  have ha : (j ++ on k ((j.heldBy k).map .released)).attached = j.attached := by
    rw [attached_append, attached_heldBy, List.append_nil]
  have hr : (j ++ on k ((j.heldBy k).map .released)).released =
      j.released ++ j.held.filter (·.1 == k) := by
    rw [released_append, released_heldBy]
  have hheld_nodup : (j.held.filter (·.1 == k)).Nodup :=
    (List.Nodup.of_map _ h.held_nodup).filter _
  rw [Store.detachAll_eq]
  constructor
  · rw [ha]
    exact h.ids
  · rw [hr, List.nodup_append]
    refine ⟨h.released_nodup, hheld_nodup, fun r hr r' hr' heq => ?_⟩
    subst heq
    have hnot := (List.mem_filter.1 (List.mem_filter.1 hr').1).2
    exact of_decide_eq_true hnot hr
  · rw [ha, hr]
    intro r hr
    rcases List.mem_append.1 hr with hold | hnew
    · exact h.released_attached r hold
    · exact (List.mem_filter.1 (List.mem_filter.1 hnew).1).1
  · rw [held_release]
    -- a listener belongs to one stream, so going by ids is going by streams
    have hids : ∀ r ∈ j.held, decide (r.2 ∉ j.heldBy k) = (r.1 != k) := by
      intro r hr
      by_cases hk : r.1 = k
      · have hmem : r.2 ∈ j.heldBy k := mem_heldBy.2 (hk ▸ hr)
        simp [hmem, hk]
      · have hnot : r.2 ∉ j.heldBy k := fun hmem => hk (h.eq_of_mem_held hr (mem_heldBy.1 hmem))
        simp [hnot, hk]
    calc (s.listeners.filter (·.id ∉ j.heldBy k)).map (·.id)
        = (s.listeners.map (·.id)).filter (· ∉ j.heldBy k) := by
          rw [List.filter_map]
          rfl
      _ = (j.held.filter (·.2 ∉ j.heldBy k)).map (·.2) := by
          rw [h.listeners, List.filter_map]
          rfl
      _ = (j.held.filter (·.1 != k)).map (·.2) := by
          rw [List.filter_congr hids]
  · have hlength : (j.heldBy k).length = (j.held.filter (·.1 == k)).length := List.length_map _
    rw [hr, List.length_append, ← h.detached, ← hlength]
    rfl

/-! ### Steps of a stream -/

theorem Client.perform_listen_refused {c c' : Client} {target : ListenTarget} {box : Mailbox}
    {e : StoreError}
    (h : c.perform (.listen target) (Store.listen target box) = (.error e, c')) :
    c.store.KeepsListeners c'.store := by
  obtain ⟨failures, rfl⟩ := Stream.perform_listen_error h
  exact ⟨rfl, rfl, rfl⟩

namespace Stream

/-- What a journal says of the listeners is true of the store and of one stream. -/
structure Holds (j : Journal) (k : StreamId) (s : Stream) (c : Client) : Prop where
  accounts : Accounts j c.store
  listeners : s.listeners = j.heldBy k
  ended : s.phase = .ended → s.listeners = []

variable {j : Journal} {k : StreamId} {s s' : Stream} {c c' : Client} {events : List Event}

/-- Nothing is attached or released. -/
theorem Holds.of_keeps (h : Holds j k s c) (hkeeps : c.store.KeepsListeners c'.store)
    (hlisteners : s'.listeners = s.listeners) (hphase : s'.phase = .ended → s.phase = .ended)
    (hattached : events.filterMap Event.attached? = [])
    (hreleased : events.filterMap Event.released? = []) : Holds (j ++ on k events) k s' c' := by
  have ha : (on k events).attached = [] := by rw [attached_on, hattached, List.map_nil]
  have hr : (on k events).released = [] := by rw [released_on, hreleased, List.map_nil]
  refine ⟨h.accounts.of_keeps hkeeps ha hr, ?_, fun hended => ?_⟩
  · rw [hlisteners, h.listeners, heldBy, heldBy, held, held, attached_append, released_append, ha,
      hr, List.append_nil, List.append_nil]
  · rw [hlisteners]
    exact h.ended (hphase hended)

/-- A stream that ends releases what it holds. -/
theorem Holds.finish (h : Holds j k s c) :
    Holds (j ++ on k s.releases) k (s.finish c).1 (s.finish c).2 := by
  have hreleases : s.releases = (j.heldBy k).map .released := by rw [releases, h.listeners]
  rw [hreleases]
  refine ⟨?_, ?_, fun _ => rfl⟩
  · have haccounts := h.accounts.release k s.mailbox
    rw [← h.listeners] at haccounts ⊢
    exact haccounts
  · rw [heldBy, held_release, List.filter_filter]
    have hnone : j.held.filter (fun r => r.1 == k && r.1 != k) = [] :=
      List.filter_eq_nil_iff.2 fun r _ => by simp
    rw [hnone]
    rfl

/-- Attaching one listener after the other is accounted for, and so is a refusal. -/
theorem Holds.attach (h : Holds j k s c) (hphase : s.phase ≠ .ended) (targets : List ListenTarget) :
    Holds (j ++ on k (answers s.mailbox targets c)) k (s.attach targets c).1
      (s.attach targets c).2 := by
  induction targets generalizing j s c with
  | nil => exact h.of_keeps (.refl _) rfl (fun hended => by cases hended) rfl rfl
  | cons target rest ih =>
    rcases hlisten : c.perform (.listen target) (Store.listen target s.mailbox) with ⟨e | id, c'⟩
    · obtain ⟨hattach, hanswers⟩ := attach_cons_of_error hlisten rest
      rw [hattach, hanswers]
      exact h.of_keeps (Client.perform_listen_refused hlisten) rfl (fun hended => by cases hended)
        rfl rfl
    · obtain ⟨hattach, hanswers⟩ := attach_cons_of_ok hlisten rest
      obtain ⟨rfl, hclient⟩ := perform_listen hlisten
      have hone : Holds (j ++ on k [.attached c.store.nextListener]) k
          { s with listeners := s.listeners ++ [c.store.nextListener] } c' := by
        refine ⟨?_, ?_, fun hended => absurd hended hphase⟩
        · rw [hclient]
          exact h.accounts.attach k target s.mailbox
        · rw [heldBy, h.accounts.held_attach k, List.filter_append, List.map_append, h.listeners,
            heldBy]
          simp
      have hrest := ih hone hphase
      rw [List.append_assoc] at hrest
      rw [hattach, hanswers]
      exact hrest

/-- Every step of a stream is accounted for. -/
theorem Holds.works {r : Stream × Client} (h : Holds j k s c) (hworks : Works s c events r) :
    Holds (j ++ on k events) k r.1 r.2 := by
  -- a pass makes no listen calls, and a notice is mail only
  have hexecute : ∀ c : Client, c.store.KeepsListeners (s.executed c).store := fun c =>
    Executor.keepsListeners_execute s.config s.operation c
  have hreceive : ∀ {notice store}, c.store.receive? s.mailbox = some (notice, store) →
      c.store.KeepsListeners (s.executed { c with store }).store := fun {_ store} hnotice =>
    (Store.KeepsListeners.of_receive hnotice).trans (hexecute { c with store })
  have hsending : ∀ {result next}, (s.send result next).phase = .ended → s.phase = .ended :=
    fun hended => by cases hended
  cases hworks with
  | stop hphase hcancelled => exact h.finish
  | first hphase hcancelled hresponse => exact h.of_keeps (hexecute c) rfl hsending rfl rfl
  | firstAborted hphase hcancelled hresponse hbenign =>
    have hpass : Holds (j ++ on k [.pass c]) k s (s.executed c) :=
      h.of_keeps (hexecute c) rfl id rfl rfl
    have hfinish := hpass.finish
    rw [List.append_assoc] at hfinish
    exact hfinish
  | firstFailed hphase hcancelled hresponse hbenign =>
    exact h.of_keeps (hexecute c) rfl hsending rfl rfl
  | @attach result targets hphase hcancelled hroom =>
    have hsent : Holds (j ++ on k []) k (s.sent result) c :=
      h.of_keeps (.refl _) rfl id rfl rfl
    have hattach := hsent.attach (by simp [sent, hphase]) targets
    rw [List.append_assoc] at hattach
    exact hattach
  | listen hphase hcancelled hroom =>
    exact h.of_keeps (.refl _) rfl (fun hended => by cases hended) rfl rfl
  | @close result hphase hcancelled hroom =>
    have hsent : Holds (j ++ on k []) k (s.sent result) c :=
      h.of_keeps (.refl _) rfl id rfl rfl
    have hfinish := hsent.finish
    rw [List.append_assoc] at hfinish
    exact hfinish
  | rerun hphase hcancelled hnotice hresponse =>
    exact h.of_keeps (hreceive hnotice) rfl hsending rfl rfl
  | rerunAborted hphase hcancelled hnotice hresponse hbenign =>
    exact h.of_keeps (hreceive hnotice) rfl id rfl rfl
  | rerunFailed hphase hcancelled hnotice hresponse hbenign =>
    exact h.of_keeps (hreceive hnotice) rfl hsending rfl rfl
  | abortNotice hphase hcancelled hnotice habort =>
    exact h.of_keeps (.of_receive hnotice) rfl id rfl rfl
  | errorNotice hphase hcancelled hnotice habort =>
    exact h.of_keeps (.of_receive hnotice) rfl hsending rfl rfl
  | idle hphase hcancelled hlisteners => exact h.finish

/-- So is its work until it waits. -/
theorem Holds.advance (h : Holds j k s c) :
    Holds (j ++ on k (s.advanceEvents c)) k (s.advance c).1 (s.advance c).2 := by
  have hstart : Holds (j ++ on k []) k s c := by rwa [on, List.map_nil, List.append_nil]
  refine advance_induction (motive := fun front s c => Holds (j ++ on k front) k s c) hstart
    fun {front s c events r} hmotive hworks => ?_
  have hnext := hmotive.works hworks
  rw [List.append_assoc] at hnext
  rw [on, List.map_append]
  exact hnext

/-- So is whatever else happens on it. -/
theorem Holds.moves {r : Stream × Client} (h : Holds j k s c)
    (hmoves : Session.Moves s c events r) : Holds (j ++ on k events) k r.1 r.2 := by
  cases hmoves with
  | work hstep => exact h.works (works_of_step hstep)
  | advance => exact h.advance
  | take hbuffer => exact h.of_keeps (.refl _) rfl id rfl rfl
  | cancel => exact h.of_keeps (.refl _) rfl id rfl rfl

end Stream

/-! ### Runs -/

namespace Session

/-- What a journal says of the listeners is true of a session. -/
structure Accounted (j : Journal) (s : Session) : Prop where
  accounts : Accounts j s.client.store
  holds : ∀ {k : StreamId} {stream : Stream}, s.streams[k]? = some stream →
    stream.Holds j k s.client
  unopened : ∀ {k : StreamId}, s.streams[k]? = none → j.heldBy k = []

variable {j : Journal} {s s' : Session}

/-- A step that opens no stream and works on none. -/
theorem Accounted.of_keeps (h : Accounted j s)
    (hkeeps : s.client.store.KeepsListeners s'.client.store) (hstreams : s'.streams = s.streams) :
    Accounted (j ++ []) s' := by
  have haccounts : Accounts (j ++ []) s'.client.store := h.accounts.of_keeps hkeeps rfl rfl
  rw [List.append_nil] at haccounts ⊢
  refine ⟨haccounts, fun hk => ?_, fun hk => ?_⟩
  · rw [hstreams] at hk
    exact ⟨haccounts, (h.holds hk).listeners, (h.holds hk).ended⟩
  · rw [hstreams] at hk
    exact h.unopened hk

theorem Accounted.opens (h : Accounted j s) (hopens : s.Opens s') : Accounted (j ++ []) s' := by
  obtain ⟨hclient, opened, hlisteners, hstreams⟩ := hopens
  rw [List.append_nil]
  refine ⟨hclient ▸ h.accounts, fun {k stream} hk => ?_, fun {k} hk => ?_⟩
  · rw [hstreams] at hk
    rw [hclient]
    rcases Nat.lt_trichotomy k s.streams.length with hlt | heq | hgt
    · rw [List.getElem?_append_left hlt] at hk
      exact h.holds hk
    · rw [heq, List.getElem?_concat_length] at hk
      obtain rfl := Option.some.inj hk
      refine ⟨h.accounts, ?_, fun _ => hlisteners⟩
      rw [hlisteners, heq, h.unopened (List.getElem?_eq_none (Nat.le_refl _))]
    · rw [List.getElem?_eq_none (by rw [List.length_append]; exact hgt)] at hk
      cases hk
  · rw [hstreams, List.getElem?_eq_none_iff, List.length_append] at hk
    exact h.unopened (List.getElem?_eq_none (by omega))

/-- A step that works on one stream. -/
theorem Accounted.set (h : Accounted j s) {k : StreamId} {stream moved : Stream}
    {events : List Event} (hk : s.streams[k]? = some stream)
    (hmoved : moved.Holds (j ++ on k events) k s'.client)
    (hstreams : s'.streams = s.streams.set k moved) : Accounted (j ++ on k events) s' := by
  refine ⟨hmoved.accounts, fun {k' stream'} hk' => ?_, fun {k'} hk' => ?_⟩
  · rw [hstreams] at hk'
    by_cases heq : k = k'
    · subst heq
      rw [List.getElem?_set_self (List.getElem?_eq_some_iff.1 hk).1] at hk'
      obtain rfl := Option.some.inj hk'
      exact hmoved
    · rw [List.getElem?_set_ne heq] at hk'
      refine ⟨hmoved.accounts, ?_, (h.holds hk').ended⟩
      rw [heldBy_on_of_ne heq]
      exact (h.holds hk').listeners
  · rw [hstreams, List.getElem?_eq_none_iff, List.length_set] at hk'
    have hne : k ≠ k' := fun heq =>
      Nat.not_lt.2 hk' (heq ▸ (List.getElem?_eq_some_iff.1 hk).1)
    rw [heldBy_on_of_ne hne]
    exact h.unopened (List.getElem?_eq_none hk')

/-- Every step of a session is accounted for. -/
theorem Accounted.step {j' : Journal} (h : Accounted j s) (hstep : Step s j' s') :
    Accounted (j ++ j') s' := by
  cases hstep.outcome with
  | keeps hkeeps hstreams => exact h.of_keeps hkeeps hstreams
  | opens hopens => exact h.opens hopens
  | moves hid hmoves hclient hstreams =>
    refine h.set hid ?_ hstreams
    rw [hclient]
    exact (h.holds hid).moves hmoves

theorem Accounted.run (h : Accounted j s) {j' : Journal} (hrun : Run Step s j' s') :
    Accounted (j ++ j') s' := by
  induction hrun with
  | refl =>
    rw [List.append_nil]
    exact h
  | tail _ hstep ih =>
    rw [← List.append_assoc]
    exact ih.step hstep

end Session

/-! ### Conservation -/

theorem Accounts.length_attached {j : Journal} {s : Store} (h : Accounts j s) :
    s.listeners.length + s.detached = j.attached.length := by
  have hlisteners : s.listeners.length = j.held.length := by
    have hlength := congrArg List.length h.listeners
    rwa [List.length_map, List.length_map] at hlength
  -- every release is of a listener that was attached
  have hreleased : (j.attached.filter fun r => !decide (r ∉ j.released)).Perm j.released := by
    refine (List.perm_ext_iff_of_nodup ((List.Nodup.of_map _ h.attached_nodup).filter _)
      h.released_nodup).2 fun r => ?_
    rw [List.mem_filter]
    constructor
    · rintro ⟨-, hr⟩
      simpa using hr
    · exact fun hr => ⟨h.released_attached r hr, by simpa using hr⟩
  rw [List.length_eq_length_filter_add (fun r => decide (r ∉ j.released)), hreleased.length_eq,
    hlisteners, h.detached, held]

theorem Accounts.mem_listeners {j : Journal} {s : Store} (h : Accounts j s) (id : Nat) :
    (∃ l ∈ s.listeners, l.id = id) ↔ ∃ k, (k, id) ∈ j.held := by
  have hmem : (∃ l ∈ s.listeners, l.id = id) ↔ id ∈ j.held.map (·.2) := by
    rw [← h.listeners, List.mem_map]
  rw [hmem, List.mem_map]
  constructor
  · rintro ⟨⟨k, id'⟩, hheld, rfl⟩
    exact ⟨k, hheld⟩
  · rintro ⟨k, hheld⟩
    exact ⟨(k, id), hheld, rfl⟩

/-- The listeners of a store against what a journal says of them. -/
structure Conserved (j : Journal) (s : Session) : Prop where
  /-- The listen calls that succeeded got the ids one after the other. -/
  attached : j.attached.map (·.2) = List.range s.client.store.nextListener
  /-- As many of them succeeded as there are listeners now and listeners that were detached. -/
  count : s.client.store.listeners.length + s.client.store.detached = j.attached.length
  /-- Each release detaches one listener, and none is released twice. -/
  released_once : s.client.store.detached = j.released.length ∧ (j.released.map (·.2)).Nodup
  /-- A stream releases no other listeners than those it attached. -/
  released_attached : ∀ r ∈ j.released, r ∈ j.attached
  /-- A listener is there until it is released itself. -/
  listeners : ∀ id, (∃ l ∈ s.client.store.listeners, l.id = id) ↔
    ∃ k, (k, id) ∈ j.attached ∧ (k, id) ∉ j.released
  /-- A stream that has ended left none behind. -/
  ended : ∀ k stream, s.streams[k]? = some stream → stream.phase = .ended →
    ∀ id, (k, id) ∈ j.attached → ¬ ∃ l ∈ s.client.store.listeners, l.id = id

/-- In any run of a session on a store that nobody has listened to, the listeners are conserved. -/
theorem conserved_of_run {store : Store} {faults : List Fault} (hstore : store.Unwatched)
    {j : Journal} {s : Session}
    (hrun : Session.Run Session.Step (.ofClient (.ofStore store faults)) j s) :
    Conserved j s := by
  have hstart : Session.Accounted [] (.ofClient (.ofStore store faults)) := by
    refine ⟨⟨?_, .nil, ?_, ?_, hstore.detached⟩, fun hk => ?_, fun _ => rfl⟩
    · exact congrArg List.range hstore.nextListener.symm
    · exact fun r hr => by cases hr
    · exact congrArg (List.map (·.id)) hstore.listeners
    · cases hk
  have hend := hstart.run hrun
  rw [List.nil_append] at hend
  have haccounts := hend.accounts
  refine ⟨haccounts.ids, haccounts.length_attached, ⟨haccounts.detached, ?_⟩,
    haccounts.released_attached, fun id => ?_, fun k stream hk hended id hid hmem => ?_⟩
  · refine haccounts.released_nodup.map_on fun r hr r' hr' heq => ?_
    exact List.inj_on_of_nodup_map haccounts.attached_nodup (haccounts.released_attached r hr)
      (haccounts.released_attached r' hr') heq
  · rw [haccounts.mem_listeners]
    simp only [held, List.mem_filter, decide_eq_true_eq]
  · obtain ⟨k', hheld⟩ := (haccounts.mem_listeners id).1 hmem
    obtain ⟨hattached, -⟩ := List.mem_filter.1 hheld
    -- the listener is held by the stream that attached it, and that one holds nothing
    obtain rfl : k' = k := congrArg Prod.fst
      (List.inj_on_of_nodup_map haccounts.attached_nodup hattached hid rfl)
    have hholds := hend.holds hk
    have hnone : j.heldBy k' = [] := by rw [← hholds.listeners, hholds.ended hended]
    rw [← mem_heldBy, hnone] at hheld
    cases hheld

/-- A session with a stream that listens. -/
def listeningSession : Session :=
  ((Session.ofClient (.ofStore .empty [])).spawn {} watchUser true 1).2.run 0

theorem conserved_of_run_watchUser :
    ∃ j, Store.empty.Unwatched ∧ j.attached = [(0, 0)] ∧ j.released = [(0, 0)] ∧
      Conserved j ((listeningSession.drop 0).run 0) :=
  ⟨_, ⟨rfl, rfl, rfl⟩, by decide +kernel, by decide +kernel,
    conserved_of_run ⟨rfl, rfl, rfl⟩ ((((Session.Run.single (.spawn {} watchUser true 1)).tail
      (.run 0)).tail (.drop 0)).tail (.run 0))⟩

end LiveDocs
