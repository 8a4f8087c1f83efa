import LiveDocs.Proofs.Store.History
import LiveDocs.Proofs.Store.Additions
import Mathlib.Data.Nat.Digits.Defs
import Mathlib.Data.String.Basic

/-!
# Documents in the order in which they were added

Ids are generated from a counter and compared as texts. They all have twenty digits as long as the
counter has no more, and texts of digits of one length are ordered as the numbers that they write.
So a document that is added comes last in its collection, and a collection that is written in no
other way lists its documents in the order in which they were added. Main statements:
`generatedId_lt_generatedId`, generated ids ascend; `Lists.happens`, what an event makes of a
collection that grows at its end; `added_in_order`, the ids ascend over any history, and a query
shows the documents in that order.
-/

namespace LiveDocs

/-! ### Texts of digits -/

theorem digit_of_isDigit {c : Char} (h : c.isDigit = true) :
    '0'.toNat ≤ c.toNat ∧ c.toNat - '0'.toNat < 10 := by
  obtain ⟨hlow, hhigh⟩ := Bool.and_eq_true_iff.1 h
  have hlow' : '0'.toNat ≤ c.toNat := of_decide_eq_true hlow
  have hhigh' : c.toNat ≤ '9'.toNat := of_decide_eq_true hhigh
  have hnine : '9'.toNat = '0'.toNat + 9 := rfl
  omega

/-- A smaller leading digit makes a smaller number, whatever follows. -/
theorem mul_add_lt_mul {power digit larger rest : Nat} (hdigit : digit < larger)
    (hrest : rest < power) : power * digit + rest < power * larger :=
  calc
    power * digit + rest < power * digit + power := Nat.add_lt_add_left hrest _
    _ = power * (digit + 1) := (Nat.mul_succ _ _).symm
    _ ≤ power * larger := Nat.mul_le_mul_left _ hdigit

/-- A number has no more digits than it is written with. -/
theorem ofDigitChars_lt_pow {cs : List Char} (h : ∀ c ∈ cs, c.isDigit = true) :
    Nat.ofDigitChars 10 cs 0 < 10 ^ cs.length := by
  induction cs with
  | nil => simp
  | cons c rest ih =>
    obtain ⟨hc, hrest⟩ := List.forall_mem_cons.1 h
    rw [Nat.ofDigitChars_cons, Nat.ofDigitChars_eq_ofDigitChars_zero, Nat.mul_zero, Nat.zero_add,
      List.length_cons, Nat.pow_succ]
    exact mul_add_lt_mul (digit_of_isDigit hc).2 (ih hrest)

/-- Of two texts of as many digits, the one that comes first writes the smaller number. -/
theorem ofDigitChars_lt_of_lt {as bs : List Char} (hlength : as.length = bs.length)
    (has : ∀ a ∈ as, a.isDigit = true) (h : as < bs) :
    Nat.ofDigitChars 10 as 0 < Nat.ofDigitChars 10 bs 0 := by
  induction as generalizing bs with
  | nil =>
    cases bs with
    | nil => exact absurd h (List.lt_irrefl _)
    | cons b bs => cases hlength
  | cons a as ih =>
    cases bs with
    | nil => cases hlength
    | cons b bs =>
      obtain ⟨ha, has⟩ := List.forall_mem_cons.1 has
      have hlength' : as.length = bs.length := Nat.succ.inj hlength
      rw [Nat.ofDigitChars_cons, Nat.ofDigitChars_cons, Nat.mul_zero, Nat.zero_add, Nat.zero_add,
        Nat.ofDigitChars_eq_ofDigitChars_zero (l := as),
        Nat.ofDigitChars_eq_ofDigitChars_zero (l := bs), ← hlength']
      rcases List.cons_lt_cons_iff.1 h with hlt | ⟨rfl, hlt⟩
      · -- the first digits that differ decide
        have hab : a.toNat < b.toNat := hlt
        have hzero := (digit_of_isDigit ha).1
        have hdigits : a.toNat - '0'.toNat < b.toNat - '0'.toNat := by omega
        exact Nat.lt_add_right _ (mul_add_lt_mul hdigits (ofDigitChars_lt_pow has))
      · exact Nat.add_lt_add_left (ih hlength' has hlt) _

namespace Store

/-- Ids have twenty digits until the counter has more. -/
theorem length_generatedId {n : Nat} (hn : n < 10 ^ 20) : (generatedId n).toList.length = 20 := by
  have hdigits : (Nat.toDigits 10 n).length ≤ 20 := Nat.toDigits_length 10 n 20 (by decide) hn
  rw [toList_generatedId, List.length_append, List.length_replicate]
  omega

/-- Ids ascend with the count that they are made from. -/
theorem generatedId_lt_generatedId {m n : Nat} (h : m < n) (hn : n < 10 ^ 20) :
    generatedId m < generatedId n := by
  have hlength : (generatedId n).toList.length = (generatedId m).toList.length := by
    rw [length_generatedId hn, length_generatedId (Nat.lt_trans h hn)]
  rw [String.lt_iff_toList_lt]
  rcases lt_trichotomy (generatedId m).toList (generatedId n).toList with hlt | heq | hgt
  · exact hlt
  · exact absurd (generatedId_injective (String.toList_injective heq)) (Nat.ne_of_lt h)
  · have hvalue := ofDigitChars_lt_of_lt hlength (fun _ => isDigit_of_mem_generatedId) hgt
    rw [ofDigitChars_generatedId, ofDigitChars_generatedId] at hvalue
    exact absurd hvalue (Nat.lt_asymm h)

end Store

/-! ### Collections that grow at their end -/

namespace Collection

theorem insertEntry_of_forall_lt {id : String} {data : Members} {entries : List (String × Members)}
    (h : ∀ entry ∈ entries, entry.1 < id) :
    insertEntry id data entries = entries ++ [(id, data)] := by
  induction entries with
  | nil => rfl
  | cons head rest ih =>
    obtain ⟨hhead, hrest⟩ := List.forall_mem_cons.1 h
    rw [insertEntry, if_neg (String.lt_asymm hhead),
      if_neg fun heq => String.lt_irrefl _ (heq ▸ hhead), ih hrest, List.cons_append]

theorem erase_of_get?_eq_none {c : Collection} {id : String} (h : c.get? id = none) :
    c.erase id = c := by
  have hentries : c.entries.filter (·.1 ≠ id) = c.entries := by
    refine List.filter_eq_self.2 fun entry hentry => decide_eq_true fun hid => ?_
    have hsome : c.get? entry.1 = some entry.2 := get?_eq_some_iff.2 hentry
    rw [hid, h] at hsome
    cases hsome
  cases c
  simpa [erase] using hentries

end Collection

/-- The event is a `set` or an update of a document of a collection. -/
def StoreEvent.Rewrites (c : CollectionRef) : StoreEvent → Prop
  | .request (.set d _ _) _ => d.parent = c
  | .request (.update d _) _ => d.parent = c
  | _ => False

/-- What an event makes of the documents that were added to a collection and are left: one that is
added comes last, and one that is deleted is gone. -/
def StoreEvent.keep (c : CollectionRef) (kept : List (DocumentRef × Members)) :
    StoreEvent → List (DocumentRef × Members)
  | .request (.add c' data) (.ok d) => if c' = c then kept ++ [(d, data)] else kept
  | .request (.delete d) (.ok _) => kept.filter (·.1 ≠ d)
  | _ => kept

theorem StoreEvent.keep_add (c c' : CollectionRef) (kept : List (DocumentRef × Members))
    (data : Members) (d : DocumentRef) :
    keep c kept (.request (.add c' data) (.ok d)) = if c' = c then kept ++ [(d, data)] else kept :=
  rfl

/-- The documents that were added to a collection and not deleted since, with their data, in the
order in which they were added. -/
def survivors (c : CollectionRef) (events : List StoreEvent) : List (DocumentRef × Members) :=
  events.foldl (StoreEvent.keep c) []

namespace Store

variable {s s' : Store} {event : StoreEvent} {events : List StoreEvent} {c : CollectionRef}
  {kept : List (DocumentRef × Members)}

/-- A collection holds some documents in their order, and all of them under generated ids. -/
structure Lines (s : Store) (c : CollectionRef) (kept : List (DocumentRef × Members)) : Prop where
  entries : (s.collection c.path).entries = kept.map fun entry => (entry.1.id, entry.2)
  generated : ∀ entry ∈ kept, ∃ n ≤ s.generated, entry.1 = c.doc (generatedId n)

theorem Lines.of_collection (h : s.Lines c kept) (hgenerated : s.generated ≤ s'.generated)
    (hcollection : s'.collection c.path = s.collection c.path) : s'.Lines c kept where
  entries := by rw [hcollection, h.entries]
  generated entry hentry := by
    obtain ⟨n, hn, hdoc⟩ := h.generated entry hentry
    exact ⟨n, Nat.le_trans hn hgenerated, hdoc⟩

theorem Lines.parent (h : s.Lines c kept) {entry : DocumentRef × Members} (hentry : entry ∈ kept) :
    entry.1.parent = c := by
  obtain ⟨n, -, hdoc⟩ := h.generated entry hentry
  rw [hdoc, c.parent_doc (isSegment_generatedId n)]

/-- An added document comes last. -/
theorem Lines.add (h : s.Lines c kept) (hs : s.failures = []) (data : Members)
    (hbound : s.generated + 1 < 10 ^ 20) :
    ((Request.add c data).run s).2.Lines c
      (kept ++ [(c.doc (generatedId (s.generated + 1)), data)]) := by
  have hsegment := isSegment_generatedId (s.generated + 1)
  have hlast : ∀ entry ∈ (s.collection c.path).entries,
      entry.1 < generatedId (s.generated + 1) := by
    rw [h.entries]
    intro entry hentry
    obtain ⟨earlier, hearlier, rfl⟩ := List.mem_map.1 hentry
    obtain ⟨n, hn, hdoc⟩ := h.generated earlier hearlier
    rw [hdoc, c.id_doc (isSegment_generatedId n)]
    exact generatedId_lt_generatedId (Nat.lt_succ_of_le hn) hbound
  rw [run_add hs]
  refine ⟨?_, fun entry hentry => ?_⟩
  · change ((Store.put _ _ _).collection c.path).entries = _
    rw [c.parent_doc hsegment, c.id_doc hsegment, collection_put_self]
    change Collection.insertEntry _ _ (s.collection c.path).entries = _
    rw [Collection.insertEntry_of_forall_lt hlast, h.entries, List.map_append, List.map_singleton,
      c.id_doc hsegment]
  · rcases List.mem_append.1 hentry with hentry | hentry
    · obtain ⟨n, hn, hdoc⟩ := h.generated entry hentry
      exact ⟨n, Nat.le_succ_of_le hn, hdoc⟩
    · obtain rfl := List.mem_singleton.1 hentry
      exact ⟨_, Nat.le_refl _, rfl⟩

/-- To delete a document is to take its id out of the collection, whether it is there or not. -/
theorem collection_run_delete (hs : s.failures = []) (d : DocumentRef) :
    ((Request.delete d).run s).2.collection d.parent.path =
      (s.collection d.parent.path).erase d.id := by
  rw [Request.run, Store.delete, guarded_of_failures_nil hs]
  split
  · rename_i hnone
    exact (Collection.erase_of_get?_eq_none hnone).symm
  · exact collection_put_self s d.parent.path _

/-- A deleted document leaves the others in their order. -/
theorem Lines.delete (h : s.Lines c kept) (hs : s.failures = []) (d : DocumentRef) :
    ((Request.delete d).run s).2.Lines c (kept.filter (·.1 ≠ d)) := by
  have htouches := (Request.delete d).touches_run s
  refine ⟨?_, fun entry hentry => ?_⟩
  · by_cases hd : d.parent = c
    · subst hd
      have herase : ∀ entry ∈ kept, decide (entry.1.id ≠ d.id) = decide (entry.1 ≠ d) := by
        intro entry hentry
        refine decide_eq_decide.2 (not_congr ⟨fun hid => ?_, fun hdoc => by rw [hdoc]⟩)
        exact DocumentRef.eq_of_parent_of_id (h.parent hentry) hid
      rw [collection_run_delete hs]
      change (s.collection d.parent.path).entries.filter (·.1 ≠ d.id) = _
      rw [h.entries, List.filter_map]
      exact congrArg _ (List.filter_congr herase)
    · have hkept : kept.filter (·.1 ≠ d) = kept := by
        refine List.filter_eq_self.2 fun entry hentry => decide_eq_true fun hdoc => hd ?_
        rw [← hdoc, h.parent hentry]
      rw [htouches.collection c fun heq => hd (Option.some.inj heq), hkept, h.entries]
  · obtain ⟨n, hn, hdoc⟩ := h.generated entry (List.mem_of_mem_filter hentry)
    rw [htouches.generated fun hadds => hadds]
    exact ⟨n, hn, hdoc⟩

theorem fst_run_delete (hs : s.failures = []) (d : DocumentRef) :
    ((Request.delete d).run s).1 = .ok () := by
  rw [Request.run, Store.delete, guarded_of_failures_nil hs]
  split <;> rfl

/-- An event makes of the documents what their list says, unless it writes in another way. -/
theorem Lines.happens (h : s.Lines c kept) (hevent : s.Happens event s')
    (hrewrites : event.Rewrites c → s'.collection c.path = s.collection c.path)
    (hbound : s'.generated < 10 ^ 20) : s'.Lines c (event.keep c kept) := by
  cases hevent with
  | @request _ r answer _ _ hrun =>
    cases hs : s.failures with
    | cons e rest =>
      rw [Request.run_of_failures_cons r hs] at hrun
      obtain ⟨rfl, rfl⟩ := Prod.mk.inj hrun
      have hkeep : StoreEvent.keep c kept (.request r (.error e)) = kept := by cases r <;> rfl
      rw [hkeep]
      exact h.of_collection (Nat.le_refl _) rfl
    | nil =>
      have htouches := r.touches_run s
      rw [hrun] at htouches
      cases r with
      | add c' data =>
        have hadded := run_add hs c' data
        rw [hrun] at hadded
        obtain ⟨rfl, hstore⟩ := Prod.mk.inj hadded
        by_cases hc : c' = c
        · subst hc
          have hnext : s'.generated = s.generated + 1 := by rw [hstore]; rfl
          have hadd := h.add hs data (hnext ▸ hbound)
          rw [hrun] at hadd
          rwa [StoreEvent.keep_add, if_pos rfl]
        · have hcounted : s.generated ≤ s'.generated := by
            rw [hstore]
            exact Nat.le_succ _
          rw [StoreEvent.keep_add, if_neg hc]
          exact h.of_collection hcounted (htouches.collection c fun heq => hc (Option.some.inj heq))
      | delete d =>
        have hanswer := fst_run_delete hs d
        have hdelete := h.delete hs d
        rw [hrun] at hanswer hdelete
        obtain rfl : answer = .ok () := hanswer
        exact hdelete
      | set d | update d =>
        have hgenerated := htouches.generated fun hadds => hadds
        by_cases hd : d.parent = c
        · exact h.of_collection (Nat.le_of_eq hgenerated.symm) (hrewrites hd)
        · exact h.of_collection (Nat.le_of_eq hgenerated.symm)
            (htouches.collection c fun heq => hd (Option.some.inj heq))
      | getDocument | getQuery | listen =>
        exact h.of_collection (Nat.le_of_eq (htouches.generated fun hadds => hadds).symm)
          (htouches.collection c fun heq => nomatch heq)
  | receive hnotice =>
    have heq := (receive?_eq_some hnotice).2
    exact h.of_collection (by rw [heq]) (by rw [heq]; rfl)
  | clear | detach | setPending | failNext | failListeners =>
    exact h.of_collection (Nat.le_refl _) rfl

/-- A collection is written by adding documents only: whenever a `set` or an update of one of its
documents was requested, that left the collection as it was. -/
def WrittenByAdding (s : Store) (c : CollectionRef) (events : List StoreEvent) : Prop :=
  ∀ (front : List StoreEvent) (event : StoreEvent) (rest : List StoreEvent) (s₁ s₂ : Store),
    events = front ++ event :: rest → s.Evolves front s₁ → s₁.Happens event s₂ →
      event.Rewrites c → s₂.collection c.path = s₁.collection c.path

theorem Lines.evolves (h : s.Lines c kept) (hevolves : s.Evolves events s')
    (hwritten : s.WrittenByAdding c events) (hbound : s'.generated < 10 ^ 20) :
    s'.Lines c (events.foldl (StoreEvent.keep c) kept) := by
  induction hevolves generalizing kept with
  | nil s => exact h
  | cons hevent hrest ih =>
    have hgenerated := generated_of_evolves hrest
    have hfirst := hwritten [] _ _ _ _ rfl (.nil _) hevent
    refine ih (h.happens hevent hfirst (by omega)) ?_ hbound
    intro front event rest s₁ s₂ heq hfront
    exact hwritten (_ :: front) event rest s₁ s₂ (congrArg _ heq) (.cons hevent hfront)

/-- While fewer than `2 ^ 64` documents are added to a store, whatever else happens to it, their ids
are the first ones of the counter, so that none is used up by an addition that fails, and each comes
after the ones before it. A collection that was empty, and that is written by adding only, therefore
lists what is left of its documents in the order in which they were added. -/
theorem added_in_order {seed : Json} {s₀ : Store} (hseed : ofSeed seed = .ok s₀)
    (hevolves : s₀.Evolves events s) (hfew : (addedIn events).length < 2 ^ 64) :
    (addedIn events).map DocumentRef.id =
        (List.range' 1 (addedIn events).length).map generatedId ∧
      ((addedIn events).map DocumentRef.id).Pairwise (· < ·) ∧
      ∀ c : CollectionRef, s₀.collection c.path = .empty → s₀.WrittenByAdding c events →
        s.failures = [] → ∀ source,
          (Request.getQuery (.all c) source).run s = (.ok ((survivors c events).map
            fun entry => s.snapshot entry.1 (some entry.2) source), s) := by
  have hstart : s₀.generated = 0 := congrArg Store.generated (eq_of_ofSeed hseed)
  have hids := ids_addedIn hevolves
  have hcount := generated_of_evolves hevolves
  rw [hstart, Nat.zero_add] at hids hcount
  have hbound : s.generated < 10 ^ 20 := by
    rw [hcount]
    exact Nat.lt_trans hfew (by decide)
  refine ⟨hids, ?_, fun c hempty hwritten hs source => ?_⟩
  · rw [hids, List.pairwise_map]
    refine List.Pairwise.imp_of_mem (fun {m n} _ hn hlt => ?_) List.pairwise_lt_range'
    have hmem := (List.mem_range'_1.1 hn).2
    exact generatedId_lt_generatedId hlt (by omega)
  · have hlines : s.Lines c (survivors c events) := by
      refine Lines.evolves ⟨?_, fun entry hentry => by cases hentry⟩ hevolves hwritten hbound
      rw [hempty]
      rfl
    rw [run_getQuery_all hs, hlines.entries, List.map_map]
    refine congrArg (fun snapshots => (Except.ok snapshots, s)) (List.map_congr_left ?_)
    intro entry hentry
    obtain ⟨n, -, hdoc⟩ := hlines.generated entry hentry
    change s.snapshot (c.doc entry.1.id) _ _ = _
    rw [hdoc, c.id_doc (isSegment_generatedId n)]

/-- Two users are added, with a post between them, and the first one is deleted; the very first
addition fails. -/
def arrivals : List StoreEvent :=
  [.failNext (.notFound "busy"),
    .request (.add (.ofText "users") []) (.error (.notFound "busy")),
    .request (.add (.ofText "users") []) (.ok (.ofText "users/00000000000000000001")),
    .request (.add (.ofText "posts") []) (.ok (.ofText "posts/00000000000000000002")),
    .request (.add (.ofText "users") []) (.ok (.ofText "users/00000000000000000003")),
    .request (.delete (.ofText "users/00000000000000000001")) (.ok ())]

theorem exists_evolves_arrivals : ∃ s, empty.Evolves arrivals s ∧ s.failures = [] :=
  ⟨_, .cons (.failNext _ _) (.cons (.request rfl) (.cons (.request rfl) (.cons (.request rfl)
    (.cons (.request rfl) (.cons (.request rfl) (.nil _)))))), rfl⟩

theorem added_in_order_arrivals :
    ofSeed (.object []) = .ok empty ∧ (addedIn arrivals).length < 2 ^ 64 ∧
      empty.WrittenByAdding (.ofText "users") arrivals ∧
      ∃ s, empty.Evolves arrivals s ∧ s.failures = [] ∧
        (Request.getQuery (.all (.ofText "users")) .default).run s =
          (.ok [s.snapshot (.ofText "users/00000000000000000003") (some []) .default], s) := by
  obtain ⟨s, hevolves, hs⟩ := exists_evolves_arrivals
  have hfew : (addedIn arrivals).length < 2 ^ 64 := by decide
  have hwritten : empty.WrittenByAdding (.ofText "users") arrivals := by
    intro front event rest s₁ s₂ heq _ _ hrewrites
    have hmem : event ∈ arrivals := by
      rw [heq]
      simp
    -- there is neither a `set` nor an update in the list
    simp only [arrivals, List.mem_cons, List.not_mem_nil, or_false] at hmem
    rcases hmem with rfl | rfl | rfl | rfl | rfl | rfl <;> exact hrewrites.elim
  have hseed : ofSeed (.object []) = .ok empty := rfl
  obtain ⟨-, -, hquery⟩ := added_in_order hseed hevolves hfew
  refine ⟨rfl, hfew, hwritten, s, hevolves, hs, ?_⟩
  rw [hquery (.ofText "users") rfl hwritten hs .default]
  rfl

end Store

end LiveDocs
