import LiveDocs.Proofs.Session.Run
import LiveDocs.Proofs.Stream.Effort
import Mathlib.Data.List.Nodup

/-!
# The queue of a session

A stream that has something to do stands in the queue, and a stream that rests gets into it only
when there is something to do: a notice comes, the consumer makes room, or the stream is given up. A
notice names the mailbox it lies in, so it reaches the right stream because no two streams share a
mailbox. Main statements: `Attentive.step`, every step keeps the queue complete;
`attentive_of_run`, so it is in every session that came of a client; `mem_mail_advance`, the work of
one stream leaves the mail of the others alone.
-/

namespace LiveDocs

namespace Stream

variable {s : Stream} {c c' : Client} {events : List Event} {r : Stream × Client}

/-- Nothing but a notice would give the stream something to do. -/
def Waits (s : Stream) : Prop :=
  s.phase = .ended ∨ s.cancelled = false ∧
    ((∃ result next, s.phase = .sending result next ∧ s.capacity ≤ s.buffer.length) ∨
      s.phase = .listening ∧ s.listeners ≠ [])

theorem rests_iff_waits :
    s.Rests c ↔ s.Waits ∧
      (s.phase = .listening → ∀ notice, (s.mailbox, notice) ∉ c.store.mail) := by
  constructor
  · rintro (hphase | ⟨hcancelled, hphase, hfull⟩ | ⟨hcancelled, hphase, hlisteners, hmail⟩)
    · exact ⟨.inl hphase, fun hlistening => by cases hphase.symm.trans hlistening⟩
    · refine ⟨.inr ⟨hcancelled, .inl ⟨_, _, hphase, hfull⟩⟩, fun hlistening => ?_⟩
      cases hphase.symm.trans hlistening
    · exact ⟨.inr ⟨hcancelled, .inr ⟨hphase, hlisteners⟩⟩, fun _ => hmail⟩
  · rintro ⟨hphase | ⟨hcancelled, ⟨result, next, hphase, hfull⟩ | ⟨hphase, hlisteners⟩⟩, hmail⟩
    · exact .ended hphase
    · exact .full hcancelled hphase hfull
    · exact .idle hcancelled hphase hlisteners (hmail hphase)

/-- A listening stream with a notice has something to do. -/
theorem not_rests_of_notice (hphase : s.phase = .listening) {notice : Notice}
    (hmail : (s.mailbox, notice) ∈ c.store.mail) : ¬ s.Rests c :=
  fun hrests => (rests_iff_waits.1 hrests).2 hphase notice hmail

/-! ### The mail of other streams -/

end Stream

/-- A request takes nothing out of the mail. -/
theorem Client.mail_subset_perform {α : Type} (r : Request α) (c : Client) :
    c.store.mail ⊆ (c.perform r.call r.run).2.store.mail := by
  rcases c.store_perform r.call r.run with hstore | hstore
  · rw [hstore]
    exact List.Subset.refl _
  · obtain ⟨told, -, hmail⟩ := Store.exists_mail_run r c.store
    rw [hstore, hmail]
    exact List.subset_append_left _ _

theorem Executor.mail_subset_execute (config : Config) (o : Operation) (c : Client) :
    c.store.mail ⊆ (execute config o c).client.store.mail :=
  Pass.client_run (R := fun c c' => c.store.mail ⊆ c'.store.mail) (fun _ => List.Subset.refl _)
    (fun h h' => List.Subset.trans h h') (fun r _ c => c.mail_subset_perform r)
    (makes_documents config o) ⟨c, []⟩

namespace Stream

variable {s : Stream} {c c' : Client} {events : List Event} {r : Stream × Client}
  {entry : Mailbox × Notice}

theorem mail_subset_attach (s : Stream) (targets : List ListenTarget) (c : Client) :
    c.store.mail ⊆ (s.attach targets c).2.store.mail := by
  induction targets generalizing s c with
  | nil => exact List.Subset.refl _
  | cons target rest ih =>
    have hlisten : c.store.mail ⊆
        (c.perform (.listen target) (Store.listen target s.mailbox)).2.store.mail :=
      c.mail_subset_perform (.listen target s.mailbox)
    rcases h : c.perform (.listen target) (Store.listen target s.mailbox) with ⟨e | id, c'⟩
    · rw [h] at hlisten
      rw [(attach_cons_of_error h rest).1]
      exact hlisten
    · rw [h] at hlisten
      rw [(attach_cons_of_ok h rest).1]
      exact List.Subset.trans hlisten (ih _ c')

/-- A stream that ends empties its own mailbox only. -/
theorem mem_mail_finish (hne : entry.1 ≠ s.mailbox) (hmem : entry ∈ c.store.mail) :
    entry ∈ (s.finish c).2.store.mail := by
  change entry ∈ ((c.store.detachAll s.listeners).clear s.mailbox).mail
  rw [Store.detachAll_eq]
  exact List.mem_filter.2 ⟨hmem, bne_iff_ne.2 hne⟩

theorem mem_mail_of_receive {notice : Notice} {store : Store}
    (h : c.store.receive? s.mailbox = some (notice, store)) (hne : entry.1 ≠ s.mailbox)
    (hmem : entry ∈ c.store.mail) : entry ∈ store.mail := by
  rcases List.mem_cons.1 ((Store.mail_perm_of_receive h).mem_iff.1 hmem) with rfl | hleft
  · exact absurd rfl hne
  · exact hleft

/-- No step takes a notice out of the mailbox of another stream. -/
theorem Works.mem_mail (h : Works s c events r) (hne : entry.1 ≠ s.mailbox)
    (hmem : entry ∈ c.store.mail) : entry ∈ r.2.store.mail := by
  have hpass : ∀ {store : Store}, entry ∈ store.mail →
      entry ∈ (s.executed { c with store }).store.mail := fun {store} hstore =>
    Executor.mail_subset_execute s.config s.operation { c with store } hstore
  cases h with
  | stop => exact mem_mail_finish hne hmem
  | first | firstFailed => exact hpass hmem
  | firstAborted => exact mem_mail_finish hne (hpass hmem)
  | attach => exact mail_subset_attach _ _ c hmem
  | listen => exact hmem
  | close => exact mem_mail_finish hne hmem
  | rerun _ _ hnotice => exact hpass (mem_mail_of_receive hnotice hne hmem)
  | rerunAborted _ _ hnotice => exact hpass (mem_mail_of_receive hnotice hne hmem)
  | rerunFailed _ _ hnotice => exact hpass (mem_mail_of_receive hnotice hne hmem)
  | abortNotice _ _ hnotice => exact mem_mail_of_receive hnotice hne hmem
  | errorNotice _ _ hnotice => exact mem_mail_of_receive hnotice hne hmem
  | idle => exact mem_mail_finish hne hmem

/-- So does the work until the stream waits. -/
theorem mem_mail_advance (hne : entry.1 ≠ s.mailbox) (hmem : entry ∈ c.store.mail) :
    (s.advance c).1.mailbox = s.mailbox ∧ entry ∈ (s.advance c).2.store.mail :=
  advance_keeps (motive := fun s' c' => s'.mailbox = s.mailbox ∧ entry ∈ c'.store.mail)
    ⟨rfl, hmem⟩ fun hbefore hworks =>
      ⟨hworks.mailbox_eq.trans hbefore.1, hworks.mem_mail (hbefore.1 ▸ hne) hbefore.2⟩

/-- A stream that rests while another has worked did so before. -/
theorem rests_of_advance {other : Stream}
    (hne : other.mailbox ≠ s.mailbox) (h : other.Rests (s.advance c).2) :
    other.Rests c := by
  obtain ⟨hwaits, hmail⟩ := rests_iff_waits.1 h
  refine rests_iff_waits.2 ⟨hwaits, fun hphase notice hmem => ?_⟩
  exact hmail hphase notice (mem_mail_advance hne hmem).2

theorem mailbox_advance (s : Stream) (c : Client) : (s.advance c).1.mailbox = s.mailbox :=
  advance_keeps (motive := fun s' _ => s'.mailbox = s.mailbox) rfl
    fun hbefore hworks => hworks.mailbox_eq.trans hbefore

end Stream

namespace Session

variable {s s' : Session} {id other : StreamId} {stream : Stream}

/-! ### Waking streams -/

theorem mem_ready_enqueue : other ∈ (s.enqueue id).ready ↔ other ∈ s.ready ∨ other = id := by
  rw [enqueue]
  split
  · rename_i hqueued
    refine (or_iff_left_of_imp fun heq => ?_).symm
    rw [heq]
    exact List.contains_iff_mem.1 hqueued
  · rw [List.mem_append, List.mem_singleton]

theorem nodup_ready_enqueue (s : Session) (id : StreamId) (h : s.ready.Nodup) :
    (s.enqueue id).ready.Nodup := by
  rw [enqueue]
  split
  · exact h
  · rename_i hnot
    have hfresh : id ∉ s.ready := fun hmem => hnot (List.contains_iff_mem.2 hmem)
    exact List.nodup_append.2 ⟨h, List.nodup_singleton id, fun a ha b hb heq =>
      hfresh (List.mem_singleton.1 hb ▸ heq ▸ ha)⟩

@[simp] theorem mailboxes_enqueue (s : Session) (id : StreamId) :
    (s.enqueue id).mailboxes = s.mailboxes := by
  rw [enqueue]
  split <;> rfl

theorem listenerOf?_enqueue (s : Session) (id : StreamId) :
    (s.enqueue id).listenerOf? = s.listenerOf? := by
  funext box
  rw [listenerOf?, streams_enqueue, listenerOf?]

/-- The streams that listen and have notices, in the order of their notices. -/
def notified (s : Session) : List StreamId :=
  s.client.store.mail.filterMap fun entry => s.listenerOf? entry.1

theorem wakeNotified_eq (s : Session) : s.wakeNotified = s.notified.foldl enqueue s := by
  rw [wakeNotified, notified]
  generalize s.client.store.mail = mail
  induction mail generalizing s with
  | nil => rfl
  | cons entry rest ih =>
    rw [List.foldl_cons]
    cases hid : s.listenerOf? entry.1 with
    | none =>
      simp only [hid, List.filterMap_cons]
      exact ih s
    | some id =>
      have hrest := ih (s.enqueue id)
      rw [listenerOf?_enqueue] at hrest
      simp only [hid, List.filterMap_cons, List.foldl_cons]
      exact hrest

theorem mem_ready_foldl_enqueue {ids : List StreamId} :
    other ∈ (ids.foldl enqueue s).ready ↔ other ∈ s.ready ∨ other ∈ ids := by
  induction ids generalizing s with
  | nil => simp
  | cons id rest ih => rw [List.foldl_cons, ih, mem_ready_enqueue, List.mem_cons, or_assoc]

theorem nodup_ready_foldl_enqueue (h : s.ready.Nodup) (ids : List StreamId) :
    (ids.foldl enqueue s).ready.Nodup := by
  induction ids generalizing s with
  | nil => exact h
  | cons id rest ih => exact ih (nodup_ready_enqueue s id h)

theorem mailboxes_foldl_enqueue (s : Session) (ids : List StreamId) :
    (ids.foldl enqueue s).mailboxes = s.mailboxes := by
  induction ids generalizing s with
  | nil => rfl
  | cons id rest ih => rw [List.foldl_cons, ih, mailboxes_enqueue]

theorem mem_ready_wakeNotified :
    other ∈ s.wakeNotified.ready ↔ other ∈ s.ready ∨ other ∈ s.notified := by
  rw [wakeNotified_eq, mem_ready_foldl_enqueue]

theorem nodup_ready_wakeNotified (h : s.ready.Nodup) : s.wakeNotified.ready.Nodup := by
  rw [wakeNotified_eq]
  exact nodup_ready_foldl_enqueue h _

@[simp] theorem mailboxes_wakeNotified (s : Session) :
    s.wakeNotified.mailboxes = s.mailboxes := by
  rw [wakeNotified_eq, mailboxes_foldl_enqueue]

/-- Where no two streams share a mailbox, it tells them apart. -/
theorem eq_of_mailbox (hapart : (s.streams.map (·.mailbox)).Nodup) {stream' : Stream}
    (hid : s.streams[id]? = some stream) (hother : s.streams[other]? = some stream')
    (hmailbox : stream.mailbox = stream'.mailbox) : id = other := by
  have hlt : id < (s.streams.map (·.mailbox)).length := by
    rw [List.length_map]
    exact (List.getElem?_eq_some_iff.1 hid).1
  refine (List.getElem?_inj hlt hapart).1 ?_
  rw [List.getElem?_map, List.getElem?_map, hid, hother, Option.map_some, Option.map_some, hmailbox]

/-- Only a stream that has something to do is woken. -/
theorem exists_of_mem_notified (h : id ∈ s.notified) :
    ∃ stream, s.streams[id]? = some stream ∧ ¬ stream.Rests s.client := by
  obtain ⟨⟨box, notice⟩, hmail, hlistener⟩ := List.mem_filterMap.1 h
  obtain ⟨hlt, hfound, -⟩ := List.findIdx?_eq_some_iff_getElem.1 hlistener
  rw [Bool.and_eq_true, beq_iff_eq] at hfound
  obtain ⟨hlistening, hbox⟩ := hfound
  refine ⟨s.streams[id], List.getElem?_eq_getElem hlt, ?_⟩
  cases hphase : s.streams[id].phase with
  | listening =>
    have hmem : (s.streams[id].mailbox, notice) ∈ s.client.store.mail := by
      rw [hbox]
      exact hmail
    exact Stream.not_rests_of_notice hphase hmem
  | fresh | sending | ended => simp [Stream.isListening, hphase] at hlistening

/-- Where no two streams share a mailbox, every listening stream with a notice is woken. -/
theorem mem_notified (hapart : (s.streams.map (·.mailbox)).Nodup)
    (hid : s.streams[id]? = some stream) (hphase : stream.phase = .listening) {notice : Notice}
    (hmail : (stream.mailbox, notice) ∈ s.client.store.mail) : id ∈ s.notified := by
  refine List.mem_filterMap.2 ⟨_, hmail, List.findIdx?_eq_some_iff_getElem.2 ?_⟩
  obtain ⟨hlt, rfl⟩ := List.getElem?_eq_some_iff.1 hid
  refine ⟨hlt, ?_, fun earlier hearlier hfound => ?_⟩
  · rw [Bool.and_eq_true, beq_iff_eq, Stream.isListening, hphase]
    exact ⟨rfl, rfl⟩
  · rw [Bool.and_eq_true, beq_iff_eq] at hfound
    have hsame := eq_of_mailbox hapart hid (List.getElem?_eq_getElem (by omega)) hfound.2.symm
    exact Nat.lt_irrefl _ (hsame ▸ hearlier)

/-! ### Every stream that has something to do is queued -/

/-- Every stream that has something to do is in the queue, each of them once, and no two streams
share a mailbox. -/
structure Attentive (s : Session) : Prop where
  queued : ∀ {id stream}, s.streams[id]? = some stream → ¬ stream.Rests s.client → id ∈ s.ready
  nodup : s.ready.Nodup
  apart : (s.streams.map (·.mailbox)).Nodup
  opened : ∀ box ∈ s.streams.map (·.mailbox), box < s.mailboxes

theorem Attentive.waits (h : s.Attentive) (hid : s.streams[id]? = some stream)
    (hready : id ∉ s.ready) : stream.Waits := by
  have hrests : stream.Rests s.client := by
    by_contra hnot
    exact hready (h.queued hid hnot)
  exact (Stream.rests_iff_waits.1 hrests).1

/-- Waking streams completes a queue that lacks only streams with notices. -/
theorem attentive_wakeNotified
    (hwaits : ∀ {id stream}, s.streams[id]? = some stream → id ∉ s.ready → stream.Waits)
    (hnodup : s.ready.Nodup) (hapart : (s.streams.map (·.mailbox)).Nodup)
    (hopened : ∀ box ∈ s.streams.map (·.mailbox), box < s.mailboxes) :
    s.wakeNotified.Attentive := by
  refine ⟨fun {id stream} hid hnot => ?_, nodup_ready_wakeNotified hnodup, ?_, ?_⟩
  · rw [streams_wakeNotified] at hid
    rw [client_wakeNotified] at hnot
    by_cases hready : id ∈ s.ready
    · exact mem_ready_wakeNotified.2 (.inl hready)
    · -- all it can have to do is to take a notice
      by_contra hmissing
      refine hnot (Stream.rests_iff_waits.2 ⟨hwaits hid hready, fun hphase notice hmail => ?_⟩)
      exact hmissing (mem_ready_wakeNotified.2 (.inr (mem_notified hapart hid hphase hmail)))
  · rw [streams_wakeNotified]
    exact hapart
  · rw [streams_wakeNotified, mailboxes_wakeNotified]
    exact hopened

/-- Whatever happens to the client, waking streams keeps the queue complete. -/
theorem Attentive.notify (h : s.Attentive) (client : Client) :
    ({ s with client }.wakeNotified).Attentive :=
  attentive_wakeNotified (fun hid hready => h.waits hid hready) h.nodup h.apart h.opened

theorem map_mailbox_set {stream' : Stream} (hid : s.streams[id]? = some stream)
    (hmailbox : stream'.mailbox = stream.mailbox) :
    (s.streams.set id stream').map (·.mailbox) = s.streams.map (·.mailbox) := by
  rw [List.map_set, hmailbox, ← List.map_set, set_streams_self hid]

/-- A stream is replaced by one that rests or is queued. -/
theorem Attentive.set (h : s.Attentive) (stream' : Stream) (hid : s.streams[id]? = some stream)
    (hmailbox : stream'.mailbox = stream.mailbox) (hclient : s'.client = s.client)
    (hstreams : s'.streams = s.streams.set id stream') (hboxes : s'.mailboxes = s.mailboxes)
    (hready : s.ready ⊆ s'.ready) (hnodup : s'.ready.Nodup)
    (hqueued : stream'.Rests s.client ∨ id ∈ s'.ready) : s'.Attentive := by
  have hlt := (List.getElem?_eq_some_iff.1 hid).1
  refine ⟨fun {other found} hother hnot => ?_, hnodup, ?_, ?_⟩
  · rw [hstreams] at hother
    rw [hclient] at hnot
    by_cases heq : id = other
    · rw [← heq, List.getElem?_set_self hlt] at hother
      rw [← heq]
      exact hqueued.resolve_left (Option.some.inj hother ▸ hnot)
    · rw [List.getElem?_set_ne heq] at hother
      exact hready (h.queued hother hnot)
  · rw [hstreams, map_mailbox_set hid hmailbox]
    exact h.apart
  · rw [hstreams, map_mailbox_set hid hmailbox, hboxes]
    exact h.opened

/-- A stream is opened on a mailbox of its own, and rests or is queued. -/
theorem Attentive.opens (h : s.Attentive) (stream : Stream)
    (hmailbox : stream.mailbox = s.mailboxes) (hclient : s'.client = s.client)
    (hstreams : s'.streams = s.streams ++ [stream]) (hboxes : s'.mailboxes = s.mailboxes + 1)
    (hready : s.ready ⊆ s'.ready) (hnodup : s'.ready.Nodup)
    (hqueued : stream.Rests s.client ∨ s.streams.length ∈ s'.ready) : s'.Attentive := by
  refine ⟨fun {other found} hother hnot => ?_, hnodup, ?_, ?_⟩
  · rw [hstreams] at hother
    rw [hclient] at hnot
    by_cases hlt : other < s.streams.length
    · rw [List.getElem?_append_left hlt] at hother
      exact hready (h.queued hother hnot)
    · obtain ⟨hbound, hfound⟩ := List.getElem?_eq_some_iff.1 hother
      have hlength : (s.streams ++ [stream]).length = s.streams.length + 1 := List.length_append
      have hlast : other = s.streams.length :=
        Nat.eq_of_lt_succ_of_not_lt (hlength ▸ hbound) hlt
      subst hlast
      rw [List.getElem_concat_length rfl] at hfound
      exact hqueued.resolve_left (hfound ▸ hnot)
  · rw [hstreams, List.map_append, List.map_singleton, hmailbox]
    refine List.nodup_append.2 ⟨h.apart, List.nodup_singleton _, fun box hbox fresh hfresh => ?_⟩
    rw [List.mem_singleton.1 hfresh]
    exact Nat.ne_of_lt (h.opened box hbox)
  · rw [hstreams, List.map_append, List.map_singleton, hmailbox, hboxes]
    intro box hbox
    rcases List.mem_append.1 hbox with hbefore | hfresh
    · exact Nat.lt_succ_of_lt (h.opened box hbefore)
    · rw [List.mem_singleton.1 hfresh]
      exact Nat.lt_succ_self _

theorem Attentive.spawn (h : s.Attentive) (config : Executor.Config) (o : Operation) (live : Bool)
    (buffer : Nat) : (s.spawn config o live buffer).2.Attentive := by
  refine h.opens (.start config o live buffer s.mailboxes) rfl (client_enqueue _ _)
    (streams_enqueue _ _) (mailboxes_enqueue _ _) (fun other hother => ?_)
    (nodup_ready_enqueue _ _ h.nodup) (.inr ?_)
  · exact mem_ready_enqueue.2 (.inl hother)
  · exact mem_ready_enqueue.2 (.inr rfl)

theorem Attentive.request (h : s.Attentive) (link : Link) (o : Operation)
    (next : Option NextLink) : (link.request o next s).2.Attentive := by
  rcases link.request_cases o next s with hrequest | ⟨results, hrequest⟩
  · rw [hrequest]
    exact h.spawn _ _ _ _
  · rw [hrequest]
    exact h.opens (.ofResults results s.mailboxes) rfl rfl rfl rfl
      (List.Subset.refl _) h.nodup (.inl (.ended rfl))

theorem Attentive.work (h : s.Attentive) (id : StreamId) : (s.work id).Attentive := by
  cases hid : s.streams[id]? with
  | none =>
    simp only [Session.work, hid]
    exact h
  | some stream =>
    cases hstep : stream.step s.client with
    | none =>
      simp only [Session.work, hid, hstep]
      exact h
    | some r =>
      have hmailbox := (Stream.works_of_step hstep).mailbox_eq
      have hqueued : id ∈ s.ready := h.queued hid fun hrests => by
        cases (Stream.rests_iff.1 hrests).symm.trans hstep
      simp only [Session.work, hid, hstep]
      refine attentive_wakeNotified (fun {other found} hother hready => ?_) h.nodup ?_ ?_
      · -- the stream that took the step keeps its place in the queue
        have hne : id ≠ other := fun heq => hready (heq ▸ hqueued)
        rw [setStream, List.getElem?_set_ne hne] at hother
        exact h.waits hother hready
      · rw [setStream, map_mailbox_set hid hmailbox]
        exact h.apart
      · rw [setStream, map_mailbox_set hid hmailbox]
        exact h.opened

theorem Attentive.run (h : s.Attentive) (id : StreamId) : (s.run id).Attentive := by
  have hkept : ∀ {other}, id ≠ other → other ∉ s.ready.erase id → other ∉ s.ready :=
    fun hne hready hmem => hready ((List.mem_erase_of_ne hne.symm).2 hmem)
  cases hid : s.streams[id]? with
  | none =>
    simp only [Session.run, hid]
    refine ⟨fun {other found} hother hnot => ?_, h.nodup.erase id, h.apart, h.opened⟩
    have hne : id ≠ other := fun heq => by
      rw [heq] at hid
      cases hid.symm.trans hother
    by_contra hready
    exact hkept hne hready (h.queued hother hnot)
  | some stream =>
    have hmailbox := stream.mailbox_advance s.client
    have hlt := (List.getElem?_eq_some_iff.1 hid).1
    simp only [Session.run, hid]
    refine attentive_wakeNotified (fun {other found} hother hready => ?_) (h.nodup.erase id) ?_ ?_
    · rw [setStream] at hother
      by_cases heq : id = other
      · -- the stream that has worked rests, so that only a notice can wake it
        subst heq
        rw [List.getElem?_set_self hlt] at hother
        rw [← Option.some.inj hother]
        exact (Stream.rests_iff_waits.1 (stream.rests_advance s.client)).1
      · rw [List.getElem?_set_ne heq] at hother
        exact h.waits hother (hkept heq hready)
    · rw [setStream, map_mailbox_set hid hmailbox]
      exact h.apart
    · rw [setStream, map_mailbox_set hid hmailbox]
      exact h.opened

/-- A stream to whose consumer a result was given rests as before, unless it waited for room. -/
theorem Attentive.poll (h : s.Attentive) (id : StreamId) : (s.poll id).2.Attentive := by
  cases hid : s.streams[id]? with
  | none =>
    rw [(poll_of_none hid).1]
    exact h
  | some stream =>
    cases hbuffer : stream.buffer with
    | nil =>
      have hself : (s.poll id).2 = s := by
        simp only [Session.poll, hid, Stream.poll, hbuffer]
        cases stream.isEnded <;> exact congrArg (fun streams => { s with streams })
          (set_streams_self hid)
      rw [hself]
      exact h
    | cons result rest =>
      simp only [Session.poll, hid, Stream.poll, hbuffer]
      split
      · exact h.set { stream with buffer := rest } hid rfl (client_enqueue _ _)
          (streams_enqueue _ _) (mailboxes_enqueue _ _)
          (fun other hother => mem_ready_enqueue.2 (.inl hother)) (nodup_ready_enqueue _ _ h.nodup)
          (.inr (mem_ready_enqueue.2 (.inr rfl)))
      · rename_i hsending
        refine h.set { stream with buffer := rest } hid rfl rfl rfl rfl
          (List.Subset.refl _) h.nodup ?_
        by_cases hrests : stream.Rests s.client
        · refine .inl ?_
          cases hrests with
          | ended hphase => exact .ended hphase
          | full hcancelled hphase => simp [Stream.isSending, hphase] at hsending
          | idle hcancelled hphase hlisteners hmail =>
            exact .idle hcancelled hphase hlisteners hmail
        · exact .inr (h.queued hid hrests)

theorem Attentive.drop (h : s.Attentive) (id : StreamId) : (s.drop id).Attentive := by
  cases hid : s.streams[id]? with
  | none =>
    rw [drop_of_none hid]
    exact h
  | some stream =>
    simp only [Session.drop, hid]
    split
    · rename_i hended
      refine h.set stream.cancel hid rfl rfl rfl rfl (List.Subset.refl _) h.nodup
        (.inl (.ended ?_))
      cases hphase : stream.phase with
      | ended => exact hphase
      | fresh | sending | listening => simp [Stream.isEnded, hphase] at hended
    · exact h.set stream.cancel hid rfl (client_enqueue _ _) (streams_enqueue _ _)
        (mailboxes_enqueue _ _) (fun other hother => mem_ready_enqueue.2 (.inl hother))
        (nodup_ready_enqueue _ _ h.nodup) (.inr (mem_ready_enqueue.2 (.inr rfl)))

/-- Every step keeps the queue complete. -/
theorem Attentive.step {j : Journal} (h : s.Attentive) (hstep : Step s j s') : s'.Attentive := by
  cases hstep with
  | request link o next => exact h.request link o next
  | spawn config o live buffer => exact h.spawn config o live buffer
  | execute config o => exact h.notify _
  | ask r _ => exact h.notify _
  | failNext e => exact h.notify _
  | failListeners e => exact h.notify _
  | setPending d field v => exact h.notify _
  | run id => exact h.run id
  | work id => exact h.work id
  | poll id => exact h.poll id
  | drop id => exact h.drop id

theorem Attentive.of_run {j : Journal} (h : s.Attentive) (hrun : Run Step s j s') :
    s'.Attentive := by
  induction hrun with
  | refl => exact h
  | tail _ hstep ih => exact ih.step hstep

theorem attentive_ofClient (c : Client) : (ofClient c).Attentive :=
  ⟨fun hid => (by cases hid), .nil, .nil, fun box hbox => (by cases hbox)⟩

/-- In every session that came of a client, each stream that has something to do is queued. -/
theorem attentive_of_run {c : Client} {j : Journal} (hrun : Run Step (.ofClient c) j s) :
    s.Attentive :=
  (attentive_ofClient c).of_run hrun

end Session

end LiveDocs
