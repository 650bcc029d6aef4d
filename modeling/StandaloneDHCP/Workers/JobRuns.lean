import StandaloneDHCP.Workers.JobQueue

/-! Every schedule of the listeners and the workers: what a worker reads is what a listener
received, no datagram is lost unseen, and the goroutines come to rest when the network does. -/
namespace StandaloneDHCP
open Lib
set_option autoImplicit false

namespace Intake
variable {growth : Growth} {interfaces m : ℕ} {c : Threads Intake Goroutine}

/-- The workers are the last hundred goroutines. -/
def Invariant (m n : ℕ) (s : Intake) : Prop := n = m + maxWorkers ∧ s.Sound m

theorem kept (growth : Growth) (m : ℕ) :
    Threads.Kept (Goroutine.step growth) outside (fun _ e => NoStart e) (Invariant m)
      (fun id s t => t.Relies m id s) where
  own := fun c id t s' t' hc _ ht hstep => by
    obtain ⟨hsound, -, hrelies⟩ := Goroutine.step_keeps hc.shared.2 (hc.each id t ht) hstep
    exact ⟨⟨hc.shared.1, hsound⟩, hrelies⟩
  other := fun c id t s' t' id' u hc _ ht hstep hu hne => by
    obtain ⟨-, hsteps, -⟩ := Goroutine.step_keeps hc.shared.2 (hc.each id t ht) hstep
    exact (hc.each id' u hu).other hc.shared.2 hne hsteps
  start := fun _ _ _ hstart => hstart.elim
  outside := fun c e s' hc _ hout => by
    refine ⟨⟨hc.shared.1, (outside_keeps 0 hc.shared.2 hout).1⟩, fun id u hu => ?_⟩
    have hsteps : c.shared.Steps m (id + 1) s' := (outside_keeps (id + 1) hc.shared.2 hout).2
    exact (hc.each id u hu).other hc.shared.2 (Nat.succ_ne_self id).symm hsteps

theorem good_init (interfaces : ℕ) :
    Threads.Good (Invariant (2 * interfaces)) (fun id s t => t.Relies (2 * interfaces) id s)
      (init interfaces) where
  shared := by
    refine ⟨by simp [init], fun id hid => ?_, ?_, Nat.zero_le _, ?_, rfl, ?_, ?_⟩
    · simp [init, ArrayHeap.array, hid]
    all_goals simp [init]
  each := by
    intro id t ht
    simp only [init, List.getElem?_append, List.length_map, List.length_range] at ht
    split at ht
    · next hid =>
      simp only [List.getElem?_map, List.getElem?_range hid, Option.map_some] at ht
      cases ht
      exact ⟨hid, rfl, rfl, ⟨.nil, .slnil⟩, trivial⟩
    · next hid =>
      obtain ⟨hlt, rfl⟩ := List.getElem?_eq_some_iff.mp ht
      rw [List.length_replicate] at hlt
      rw [List.getElem_replicate]
      refine ⟨⟨by omega, by omega⟩, ?_, rfl⟩
      intro j hj
      cases hj

theorem RunsTo.good (hrun : RunsTo growth interfaces c) :
    Threads.Good (Invariant (2 * interfaces)) (fun id s t => t.Relies (2 * interfaces) id s) c :=
  Threads.Good.invariant (kept growth (2 * interfaces)) (good_init interfaces) hrun

theorem RunsTo.listener (hrun : RunsTo growth interfaces c) {id : ℕ} (hid : id < 2 * interfaces) :
    ∃ point, c.locals[id]? = some (.listener (id / 2) (bufferOf id) point) := by
  obtain ⟨⟨hlen, -⟩, heach⟩ := hrun.good
  obtain ⟨t, ht⟩ : ∃ t, c.locals[id]? = some t := ⟨_, List.getElem?_eq_getElem (by omega)⟩
  have hrelies := heach id t ht
  cases t with
  | listener int buffer point =>
    obtain ⟨-, rfl, rfl, -⟩ := hrelies
    exact ⟨point, ht⟩
  | worker job => exact absurd hrelies.1.1 (by omega)

theorem RunsTo.worker (hrun : RunsTo growth interfaces c) {id : ℕ} (hlo : 2 * interfaces ≤ id)
    (hhi : id < 2 * interfaces + maxWorkers) : ∃ job, c.locals[id]? = some (.worker job) := by
  obtain ⟨⟨hlen, -⟩, heach⟩ := hrun.good
  obtain ⟨t, ht⟩ : ∃ t, c.locals[id]? = some t := ⟨_, List.getElem?_eq_getElem (by omega)⟩
  have hrelies := heach id t ht
  cases t with
  | listener int buffer point => exact absurd hrelies.1 (by omega)
  | worker job => exact ⟨job, ht⟩

theorem RunsTo.accounts (hrun : RunsTo growth interfaces c) {id int : ℕ} {buffer : SliceHeader}
    {point : Listening} (ht : c.locals[id]? = some (.listener int buffer point)) :
    c.shared.Accounts id point.inHand := by
  obtain ⟨-, -, -, haccounts, -⟩ := hrun.good.each id _ ht
  exact haccounts

theorem RunsTo.origin_arrived (hrun : RunsTo growth interfaces c) {id : ℕ} {j : Job}
    (hid : id < 2 * interfaces) (hj : (id, j) ∈ c.shared.queued) :
    (id, j.origin) ∈ c.shared.arrived := by
  obtain ⟨point, ht⟩ := hrun.listener hid
  have horigin : j.origin ∈ (writtenBy id c.shared.queued).map Job.origin :=
    List.mem_map_of_mem (mem_writtenBy.mpr hj)
  rw [← mem_writtenBy]
  exact (hrun.accounts ht).order.subset (List.mem_append_left _ horigin)

end Intake

/-- The channel is first in, first out and never longer than its size. What a worker reads for its
job is what the socket of a listener delivered, cut to 1500 bytes, however often the listener has
filled its buffer since, with the message type, the sender and the interface that belong to it. -/
theorem jobs_reach_workers_intact {growth : Growth} {interfaces : ℕ} {c : Threads Intake Goroutine}
    (hrun : Intake.RunsTo growth interfaces c) :
    c.shared.jobs.length ≤ maxQueueSize ∧
      c.shared.queued.map Prod.snd = c.shared.taken.map Prod.snd ++ c.shared.jobs ∧
      ∀ id j bytes, (id, j, bytes) ∈ c.shared.handled →
        bytes = j.origin.received ∧ (∃ d, serve bytes = some (d, j.msgType)) ∧
          ∃ listener < 2 * interfaces, (listener, j) ∈ c.shared.queued ∧
            (listener, j.origin) ∈ c.shared.arrived ∧ j.clientAddr = j.origin.addr ∧
            j.int = listener / 2 := by
  obtain ⟨-, hsound⟩ := hrun.good.shared
  refine ⟨hsound.bounded, hsound.fifo, fun id j bytes hmem => ?_⟩
  obtain ⟨htaken, rfl⟩ : (id, j) ∈ c.shared.taken ∧ bytes = j.origin.received :=
    hsound.handled _ hmem
  have hqueued : j ∈ c.shared.queued.map Prod.snd := by
    rw [hsound.fifo]
    exact List.mem_append_left _ (List.mem_map_of_mem htaken)
  obtain ⟨⟨listener, j'⟩, hin, rfl⟩ := List.mem_map.mp hqueued
  obtain ⟨hlistener, hfrom⟩ := hsound.queued _ hin
  exact ⟨rfl, hfrom.accepted, listener, hlistener, hin, hrun.origin_arrived hlistener hin,
    hfrom.addr, hfrom.int⟩

namespace Sample

/-- An accepted datagram of a client; `xid` tells them apart. -/
def arrival (xid : UInt8) : Arrival where
  payload := List.replicate 7 0 ++ [xid] ++ List.replicate 232 0 ++ [53, 1, 1, 255]
  addr := ([0, 0, 0, 0], 68)

def growth : Growth := ⟨fun _ needed => needed, fun _ needed => Nat.le_refl needed⟩

/-- Listener 0 reads a second datagram while the job of the first waits in the channel; worker 2
takes and handles it then. -/
def overwriting : List (Sched Goroutine Surroundings) :=
  [.outside (.deliver 0 (some (arrival 1))), .run 0, .run 0, .run 0, .run 0,
    .outside (.deliver 0 (some (arrival 2))), .run 0, .run 2, .run 2]

end Sample

theorem jobs_reach_workers_intact_sample : ∃ c, Intake.RunsTo Sample.growth 1 c ∧
    (Sample.arrival 2).payload.isPrefixOf (c.shared.heap.array 0) ∧
    ∃ j ∈ c.shared.queued.map Prod.snd,
      (2, j, (Sample.arrival 1).payload) ∈ c.shared.handled ∧
      j.origin.received = (Sample.arrival 1).payload := by
  have hreplay : (replay (Threads.step (Goroutine.step Sample.growth) Intake.outside)
      (fun _ e => Intake.NoStart e) (Intake.init 1) Sample.overwriting).map (fun c =>
        (c.shared.handled.map (fun e => (e.1, e.2.2)),
          (Sample.arrival 2).payload.isPrefixOf (c.shared.heap.array 0))) =
      some ([(2, (Sample.arrival 1).payload)], true) := by
    decide +kernel
  obtain ⟨c, hc, hend⟩ := Option.map_eq_some_iff.mp hreplay
  obtain ⟨hhandled, hbuffer⟩ := Prod.mk.inj hend
  have hrun : Intake.RunsTo Sample.growth 1 c := reaches_of_replay hc
  obtain ⟨⟨id, j, bytes⟩, hmem, heq⟩ : ∃ e ∈ c.shared.handled,
      (e.1, e.2.2) = (2, (Sample.arrival 1).payload) := by
    rw [← List.mem_map, hhandled]
    exact List.mem_singleton_self _
  obtain ⟨rfl, rfl⟩ := Prod.mk.inj heq
  obtain ⟨-, -, hintact⟩ := jobs_reach_workers_intact hrun
  obtain ⟨hbytes, -, listener, -, hqueued, -⟩ := hintact _ _ _ hmem
  exact ⟨c, hrun, hbuffer, j, List.mem_map_of_mem hqueued, hmem, hbytes.symm⟩

/-- Every datagram that a listener has read was skipped by `Serve`, went into the channel, was
dropped at a full channel, or is in the hand of the listener: none is lost, none counts twice. What
went into the channel kept its order. A worker handles what it takes, once and in its order. -/
theorem datagrams_accounted_for {growth : Growth} {interfaces : ℕ} {c : Threads Intake Goroutine}
    (hrun : Intake.RunsTo growth interfaces c) {id : ℕ} :
    (∀ int buffer point, c.locals[id]? = some (.listener int buffer point) →
      (writtenBy id c.shared.skipped ++ (writtenBy id c.shared.queued).map Job.origin ++
        (writtenBy id c.shared.dropped).map Job.origin ++ point.inHand).Perm
          (writtenBy id c.shared.arrived) ∧
      ((writtenBy id c.shared.queued).map Job.origin).Sublist (writtenBy id c.shared.arrived)) ∧
    ∀ job, c.locals[id]? = some (.worker job) →
      writtenBy id c.shared.taken = (writtenBy id c.shared.handled).map Prod.fst ++ job.toList := by
  constructor
  · intro int buffer point ht
    have haccounts := hrun.accounts ht
    exact ⟨haccounts.perm, (List.sublist_append_left _ _).trans haccounts.order⟩
  · intro job ht
    obtain ⟨-, -, htaken⟩ := hrun.good.each id _ ht
    exact htaken

theorem datagrams_accounted_for_sample : ∃ c, Intake.RunsTo Sample.growth 1 c ∧
    ∃ point, c.locals[0]? = some (.listener 0 (Intake.bufferOf 0) point) ∧
      (writtenBy 0 c.shared.skipped ++ (writtenBy 0 c.shared.queued).map Job.origin ++
        (writtenBy 0 c.shared.dropped).map Job.origin ++ point.inHand).Perm
          [Sample.arrival 1, Sample.arrival 2] := by
  have hreplay : (replay (Threads.step (Goroutine.step Sample.growth) Intake.outside)
      (fun _ e => Intake.NoStart e) (Intake.init 1) Sample.overwriting).map (fun c =>
        writtenBy 0 c.shared.arrived) = some [Sample.arrival 1, Sample.arrival 2] := by
    decide +kernel
  obtain ⟨c, hc, harrived⟩ := Option.map_eq_some_iff.mp hreplay
  have hrun : Intake.RunsTo Sample.growth 1 c := reaches_of_replay hc
  have hfirst : 0 < 2 * 1 := by decide
  obtain ⟨point, ht⟩ := hrun.listener hfirst
  have hperm := ((datagrams_accounted_for hrun).1 _ _ _ ht).1
  rw [harrived] at hperm
  exact ⟨c, hrun, point, ht, hperm⟩

/-! ## The program comes to rest -/

/-- The turns that are left for what a listener has in hand. -/
def Listening.cost : Listening → ℕ
  | .got _ => 5
  | .accepted _ _ => 4
  | .enqueue _ => 3
  | .reading | .stopped => 0

def Goroutine.cost : Goroutine → ℕ
  | .listener _ _ point => point.cost
  | .worker job => job.toList.length

/-- Six turns for a datagram that waits in a socket, two for a job in the channel. -/
def Intake.waiting (interfaces : ℕ) (s : Intake) : ℕ :=
  6 * ∑ id ∈ Finset.range (2 * interfaces), (s.sockets id).length + 2 * s.jobs.length

def Intake.pending (interfaces : ℕ) (c : Threads Intake Goroutine) : ℕ :=
  c.shared.waiting interfaces + (c.locals.map Goroutine.cost).sum

section Rest
variable {growth : Growth} {interfaces : ℕ} {c c' : Threads Intake Goroutine} {s s' : Intake}

theorem sum_sockets_update {m id : ℕ} {sockets : ℕ → List (Option Arrival)} {a : Option Arrival}
    {rest : List (Option Arrival)} (hid : id < m) (hsocket : sockets id = a :: rest) :
    ∑ k ∈ Finset.range m, (Function.update sockets id rest k).length + 1 =
      ∑ k ∈ Finset.range m, (sockets k).length := by
  have hmem : id ∈ Finset.range m := Finset.mem_range.mpr hid
  rw [← Finset.add_sum_erase _ _ hmem, ← Finset.add_sum_erase (Finset.range m) (fun k =>
    (sockets k).length) hmem]
  have hothers : ∑ k ∈ (Finset.range m).erase id, (Function.update sockets id rest k).length =
      ∑ k ∈ (Finset.range m).erase id, (sockets k).length := by
    apply Finset.sum_congr rfl
    intro k hk
    rw [Function.update_of_ne (Finset.ne_of_mem_erase hk)]
  rw [hothers, Function.update_self, hsocket, List.length_cons]
  omega

theorem Listening.step_cost {id int : ℕ} {buffer : SliceHeader} {point point' : Listening}
    (hid : id < 2 * interfaces) (hstep : point.step growth id int buffer s = some (s', point')) :
    s'.waiting interfaces + point'.cost < s.waiting interfaces + point.cost := by
  cases point with
  | reading =>
    simp only [Listening.step] at hstep
    split at hstep
    · cases hstep
    · next rest hsocket =>
      cases hstep
      have hsum := sum_sockets_update hid hsocket
      simp only [Intake.waiting, Listening.cost]
      omega
    · next a rest hsocket =>
      cases hstep
      have hsum := sum_sockets_update hid hsocket
      simp only [Intake.waiting, Intake.readInto, Listening.cost]
      omega
  | got a =>
    simp only [Listening.step] at hstep
    split at hstep <;> cases hstep <;> simp [Intake.waiting, Listening.cost]
  | accepted a t =>
    cases hstep
    simp [Intake.waiting, Listening.cost]
  | enqueue j =>
    cases hstep
    unfold Intake.offer
    split_ifs <;> simp [Intake.waiting, Listening.cost]
    omega
  | stopped => cases hstep

theorem Goroutine.step_cost {id : ℕ} {t t' : Goroutine} (ht : t.Relies (2 * interfaces) id s)
    (hstep : t.step growth id s = some (s', t')) :
    s'.waiting interfaces + t'.cost < s.waiting interfaces + t.cost := by
  cases t with
  | listener int buffer point =>
    obtain ⟨⟨s₁, point'⟩, hlistening, hr⟩ := Option.map_eq_some_iff.mp hstep
    cases hr
    exact Listening.step_cost ht.1 hlistening
  | worker job =>
    cases job with
    | none =>
      simp only [Goroutine.step] at hstep
      split at hstep
      · cases hstep
      · next j rest hjobs =>
        cases hstep
        simp only [Intake.waiting, Goroutine.cost, hjobs, List.length_cons, Option.toList]
        simp
        omega
    | some j =>
      cases hstep
      simp [Intake.waiting, Goroutine.cost]

theorem Intake.RunsTo.pending_lt (hrun : Intake.RunsTo growth interfaces c) {id : ℕ}
    (hstep : c.step (Goroutine.step growth) Intake.outside (.run id) = some c') :
    Intake.RunsTo growth interfaces c' ∧
      Intake.pending interfaces c' < Intake.pending interfaces c := by
  refine ⟨.next (e := .run id) hrun trivial hstep, ?_⟩
  obtain ⟨t, s', t', ht, hact, rfl⟩ := Threads.step_run hstep
  have hcost := Goroutine.step_cost (hrun.good.each id t ht) hact
  have hsum := Threads.sum_map_set (f := Goroutine.cost) t' ht
  simp only [Intake.pending]
  omega

/-- Where no worker can move, the channel is empty and the workers wait. -/
theorem Intake.RunsTo.idle_workers (hrun : Intake.RunsTo growth interfaces c)
    (hidle : ∀ id, c.step (Goroutine.step growth) Intake.outside (.run id) = none) :
    c.shared.jobs = [] ∧ ∀ (id : ℕ) job,
      c.locals[id]? = some (Goroutine.worker job) → job = none := by
  have hwaits : ∀ (id : ℕ) job,
      c.locals[id]? = some (Goroutine.worker job) → job = none ∧ c.shared.jobs = [] := by
    intro id job ht
    have hnone := hidle id
    simp only [Threads.step, ht, Option.bind_some, Threads.runThread,
      Option.map_eq_none_iff] at hnone
    cases job with
    | some j => cases hnone
    | none =>
      refine ⟨rfl, ?_⟩
      simp only [Goroutine.step] at hnone
      split at hnone
      · assumption
      · cases hnone
  refine ⟨?_, fun id job ht => (hwaits id job ht).1⟩
  obtain ⟨job, ht⟩ := hrun.worker (Nat.le_refl _) (by simp [maxWorkers])
  exact (hwaits _ job ht).2

theorem Intake.RunsTo.handled_perm (hrun : Intake.RunsTo growth interfaces c)
    (hwait : ∀ (id : ℕ) job, c.locals[id]? = some (Goroutine.worker job) → job = none) :
    (c.shared.handled.map fun e => (e.1, e.2.1)).Perm c.shared.taken := by
  obtain ⟨-, hsound⟩ := hrun.good.shared
  refine perm_of_writtenBy fun id => ?_
  rw [writtenBy_map]
  by_cases hid : 2 * interfaces ≤ id ∧ id < 2 * interfaces + maxWorkers
  · obtain ⟨job, ht⟩ := hrun.worker hid.1 hid.2
    obtain ⟨-, -, htaken⟩ := hrun.good.each id _ ht
    rw [htaken, hwait id job ht, Option.toList_none, List.append_nil]
  · -- no other goroutine takes a job
    have htaken : writtenBy id c.shared.taken = [] := by
      rw [List.eq_nil_iff_forall_not_mem]
      intro j hj
      exact hid (hsound.taken _ (mem_writtenBy.mp hj))
    have hhandled : writtenBy id c.shared.handled = [] := by
      rw [List.eq_nil_iff_forall_not_mem]
      intro r hr
      exact hid (hsound.taken _ (hsound.handled _ (mem_writtenBy.mp hr)).1)
    rw [htaken, hhandled]
    rfl

theorem Intake.RunsTo.idle_listener (hrun : Intake.RunsTo growth interfaces c) {id : ℕ}
    (hid : id < 2 * interfaces)
    (hidle : c.step (Goroutine.step growth) Intake.outside (.run id) = none) :
    c.shared.Accounts id [] := by
  obtain ⟨point, ht⟩ := hrun.listener hid
  have haccounts := hrun.accounts ht
  simp only [Threads.step, ht, Option.bind_some, Threads.runThread, Option.map_eq_none_iff,
    Goroutine.step] at hidle
  cases point with
  | reading => exact haccounts
  | stopped => exact haccounts
  | got a =>
    simp only [Listening.step] at hidle
    split at hidle <;> cases hidle
  | accepted a t => cases hidle
  | enqueue j => cases hidle

end Rest

/-- With no new datagrams the goroutines take at most six turns for each datagram that waits. Where
they come to rest, what went into the channel has been handled, each job once, and every datagram
read was skipped, dropped or handled. -/
theorem goroutines_come_to_rest {growth : Growth} {interfaces : ℕ} {c c' : Threads Intake Goroutine}
    (hrun : Intake.RunsTo growth interfaces c) {es : List (Sched Goroutine Surroundings)}
    (honly : Threads.OnlyRuns es)
    (hes : c.follow (Goroutine.step growth) Intake.outside es = some c') :
    es.length ≤ Intake.pending interfaces c ∧
      ((∀ id, c'.step (Goroutine.step growth) Intake.outside (.run id) = none) →
        (c'.shared.handled.map fun e => e.2.1).Perm (c'.shared.queued.map Prod.snd) ∧
        ∀ id < 2 * interfaces,
          (writtenBy id c'.shared.skipped ++ (writtenBy id c'.shared.queued).map Job.origin ++
            (writtenBy id c'.shared.dropped).map Job.origin).Perm
              (writtenBy id c'.shared.arrived)) := by
  obtain ⟨hrun', hle⟩ := Threads.length_le_of_lowers (P := Intake.RunsTo growth interfaces)
    (fun c id c' hc hstep => hc.pending_lt hstep) honly hrun hes
  refine ⟨by omega, fun hidle => ⟨?_, fun id hid => ?_⟩⟩
  · obtain ⟨hjobs, hwait⟩ := hrun'.idle_workers hidle
    have hfifo := hrun'.good.shared.2.fifo
    rw [hjobs, List.append_nil] at hfifo
    rw [hfifo]
    simpa only [List.map_map, Function.comp_def] using (hrun'.handled_perm hwait).map Prod.snd
  · have hperm := (hrun'.idle_listener hid (hidle id)).perm
    rwa [List.append_nil] at hperm

/-- Both sockets of an interface have a datagram. -/
def Sample.delivered : List (Sched Goroutine Surroundings) :=
  [.outside (.deliver 0 (some (Sample.arrival 1))), .outside (.deliver 1 (some (Sample.arrival 2)))]

theorem goroutines_come_to_rest_sample : ∃ c c' : Threads Intake Goroutine,
    ∃ es : List (Sched Goroutine Surroundings),
      Intake.RunsTo Sample.growth 1 c ∧
      c.follow (Goroutine.step Sample.growth) Intake.outside es = some c' ∧ es.length ≤ 12 ∧
      (c'.shared.handled.map fun e => e.2.1).Perm (c'.shared.queued.map Prod.snd) ∧
      c'.shared.handled.length = 2 := by
  let es : List (Sched Goroutine Surroundings) :=
    [0, 1, 0, 1, 0, 1, 1, 0, 5, 3, 3, 5].map fun id => .run id
  have hreplay : (replay (Threads.step (Goroutine.step Sample.growth) Intake.outside)
      (fun _ e => Intake.NoStart e) (Intake.init 1) Sample.delivered).map (fun c =>
        (Intake.pending 1 c, (c.follow (Goroutine.step Sample.growth) Intake.outside es).map
          fun c' => ((List.range c'.locals.length).all (fun id =>
            (c'.step (Goroutine.step Sample.growth) Intake.outside (.run id)).isNone),
            c'.shared.handled.length))) = some (12, some (true, 2)) := by
    decide +kernel
  obtain ⟨c, hc, hend⟩ := Option.map_eq_some_iff.mp hreplay
  obtain ⟨hpending, hfollow⟩ := Prod.mk.inj hend
  obtain ⟨c', hes, hend'⟩ := Option.map_eq_some_iff.mp hfollow
  obtain ⟨hnone, htwo⟩ := Prod.mk.inj hend'
  have hrun : Intake.RunsTo Sample.growth 1 c := reaches_of_replay hc
  have honly : Threads.OnlyRuns es := by
    intro e he
    obtain ⟨id, -, rfl⟩ := List.mem_map.mp he
    exact ⟨id, rfl⟩
  have hidle : ∀ id, c'.step (Goroutine.step Sample.growth) Intake.outside (.run id) = none := by
    intro id
    by_cases hid : id < c'.locals.length
    · exact Option.isNone_iff_eq_none.mp (List.all_eq_true.mp hnone id (List.mem_range.mpr hid))
    · simp [Threads.step, List.getElem?_eq_none (Nat.le_of_not_lt hid)]
  obtain ⟨hle, hrest⟩ := goroutines_come_to_rest hrun honly hes
  rw [hpending] at hle
  exact ⟨c, c', es, hrun, hes, hle, (hrest hidle).1, htwo⟩

end StandaloneDHCP
