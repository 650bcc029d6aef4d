import StandaloneDHCP.Lib.ArrayHeap
import StandaloneDHCP.Lib.Interleaving
import StandaloneDHCP.Relay.DoWork

/-! From the sockets to the workers. Each interface has two listeners, and each listener reads every
datagram into the same buffer of 1500 bytes. What `Serve` accepts is copied before it goes into the
channel, so the next datagram may overwrite the buffer while a worker still looks at the job; the
channel holds a hundred jobs, and a listener that finds it full drops the datagram and goes on.

The goroutines run interleaved, one memory or channel operation at a time. `origin` is a ghost, and
so are the logs `arrived`, `skipped`, `queued`, `dropped`, `taken` and `handled`, whose entries come
with the number of the goroutine. -/
namespace StandaloneDHCP
open Lib
set_option autoImplicit false

/-- A datagram as the socket delivers it. -/
structure Arrival where
  payload : Bytes
  addr : Bytes × ℕ
deriving DecidableEq

/-- The fields of `job` that are set by `Serve`; the handler is the interface itself. -/
structure Job where
  dhcpPacket : SliceHeader
  msgType : MessageType
  int : ℕ
  clientAddr : Bytes × ℕ
  origin : Arrival

def maxQueueSize : ℕ := 100
def maxWorkers : ℕ := 100

/-- The size of the buffer of `Serve`. -/
def bufferSize : ℕ := 1500

/-- What a read into the buffer leaves of a datagram. -/
def Arrival.received (a : Arrival) : Bytes := a.payload.take bufferSize

/-- Where a listener is in the loop of `Serve`. -/
inductive Listening
  | reading
  | got (a : Arrival)
  | accepted (a : Arrival) (t : MessageType)
  | enqueue (j : Job)
  | stopped

inductive Goroutine
  | listener (int : ℕ) (buffer : SliceHeader) (point : Listening)
  | worker (job : Option Job)

/-- `sockets` holds what every listener has still to read, `none` for an error. -/
structure Intake where
  heap : ArrayHeap UInt8
  sockets : ℕ → List (Option Arrival)
  jobs : List Job
  arrived : List (ℕ × Arrival)
  skipped : List (ℕ × Arrival)
  queued : List (ℕ × Job)
  dropped : List (ℕ × Job)
  taken : List (ℕ × Job)
  handled : List (ℕ × Job × Bytes)

namespace Intake

/-- `ReadFromRaw(buffer)`. -/
def readInto (s : Intake) (id : ℕ) (buffer : SliceHeader) (a : Arrival)
    (rest : List (Option Arrival)) : Intake :=
  { s with
    heap := s.heap.write buffer.ref
      (copyInto buffer.off buffer.len a.payload (s.heap.array buffer.ref))
    sockets := Function.update s.sockets id rest
    arrived := s.arrived ++ [(id, a)] }

/-- `buffer[:n]`. -/
def request (buffer : SliceHeader) (a : Arrival) : SliceHeader :=
  buffer.sub 0 (min a.payload.length buffer.len)
    (Nat.le_trans (Nat.min_le_right _ _) buffer.len_le)

/-- `append([]byte(nil), req...)`. -/
def copyRequest (growth : Growth) (s : Intake) (buffer : SliceHeader) (a : Arrival) :
    SliceHeader × ArrayHeap UInt8 :=
  s.heap.append growth default (s.heap.read (request buffer a))

/-- `select { case jobs <- jobe: default: }`. -/
def offer (s : Intake) (id : ℕ) (j : Job) : Intake :=
  if s.jobs.length < maxQueueSize then
    { s with jobs := s.jobs ++ [j], queued := s.queued ++ [(id, j)] }
  else { s with dropped := s.dropped ++ [(id, j)] }

end Intake

/-- One step of the loop of `Serve`; `none` where the socket has nothing to read. -/
def Listening.step (growth : Growth) (id int : ℕ) (buffer : SliceHeader) (s : Intake) :
    Listening → Option (Intake × Listening)
  | .reading =>
    match s.sockets id with
    | [] => none
    | none :: rest => some ({ s with sockets := Function.update s.sockets id rest }, .stopped)
    | some a :: rest => some (s.readInto id buffer a rest, .got a)
  | .got a =>
    match serve (s.heap.read (Intake.request buffer a)) with
    | none => some ({ s with skipped := s.skipped ++ [(id, a)] }, .reading)
    | some (_, t) => some (s, .accepted a t)
  | .accepted a t =>
    let copy := s.copyRequest growth buffer a
    some ({ s with heap := copy.2 }, .enqueue ⟨copy.1, t, int, a.addr, a⟩)
  | .enqueue j => some (s.offer id j, .reading)
  | .stopped => none

/-- One step of a goroutine. A worker waits while the channel is empty; `doWork` reads the packet of
its job. -/
def Goroutine.step (growth : Growth) (id : ℕ) (s : Intake) :
    Goroutine → Option (Intake × Goroutine)
  | .listener int buffer point =>
    (point.step growth id int buffer s).map fun r => (r.1, .listener int buffer r.2)
  | .worker none =>
    match s.jobs with
    | [] => none
    | j :: rest => some ({ s with jobs := rest, taken := s.taken ++ [(id, j)] }, .worker (some j))
  | .worker (some j) =>
    some ({ s with handled := s.handled ++ [(id, j, s.heap.read j.dhcpPacket)] }, .worker none)

/-- The network, and the allocations of the rest of the program. -/
inductive Surroundings
  | deliver (id : ℕ) (a : Option Arrival)
  | alloc (content : Bytes)

def Intake.outside (s : Intake) : Surroundings → Option Intake
  | .deliver id a => some { s with sockets := Function.update s.sockets id (s.sockets id ++ [a]) }
  | .alloc content => some { s with heap := (s.heap.new content).2 }

namespace Intake

/-- The buffer of listener `id`. -/
def bufferOf (id : ℕ) : SliceHeader := ⟨id, 0, bufferSize, bufferSize, Nat.le_refl _⟩

/-- After start-up: two listeners for every interface, then the workers. -/
def init (interfaces : ℕ) : Threads Intake Goroutine where
  shared := {
    heap := ⟨List.replicate (2 * interfaces) (List.replicate bufferSize 0)⟩
    sockets := fun _ => []
    jobs := []
    arrived := []
    skipped := []
    queued := []
    dropped := []
    taken := []
    handled := [] }
  locals :=
    (List.range (2 * interfaces)).map (fun id => .listener (id / 2) (bufferOf id) .reading) ++
      List.replicate maxWorkers (.worker none)

/-- No goroutine is started later. -/
def NoStart : Sched Goroutine Surroundings → Prop
  | .start _ => False
  | _ => True

instance : DecidablePred NoStart
  | .start _ => isFalse id
  | .run _ => isTrue trivial
  | .outside _ => isTrue trivial

/-- The configurations of the running program. -/
def RunsTo (growth : Growth) (interfaces : ℕ) (c : Threads Intake Goroutine) : Prop :=
  Reaches (Threads.step (Goroutine.step growth) outside) (fun _ e => NoStart e) (init interfaces) c

end Intake

/-! ## Who writes where -/

/-- The first `m` arrays are the buffers; the packet of a job is behind them and holds what was
received. -/
structure Job.Intact (m : ℕ) (heap : ArrayHeap UInt8) (j : Job) : Prop where
  behind : m ≤ j.dhcpPacket.ref
  holds : heap.Holds j.dhcpPacket
  bytes : heap.read j.dhcpPacket = j.origin.received

/-- What listener `id` put into a job. -/
structure Job.ComesFrom (j : Job) (id : ℕ) : Prop where
  accepted : ∃ d, serve j.origin.received = some (d, j.msgType)
  addr : j.clientAddr = j.origin.addr
  int : j.int = id / 2

/-- A buffer holds what was read last. -/
def Filled (heap : ArrayHeap UInt8) (buffer : SliceHeader) (a : Arrival) : Prop :=
  heap.read (Intake.request buffer a) = a.received

/-- The datagram a listener is at. -/
def Listening.inHand : Listening → List Arrival
  | .got a => [a]
  | .accepted a _ => [a]
  | .enqueue j => [j.origin]
  | .reading | .stopped => []

/-- Where the datagrams of listener `id` are, apart from those in its hand. -/
structure Intake.Accounts (s : Intake) (id : ℕ) (inHand : List Arrival) : Prop where
  perm : (writtenBy id s.skipped ++ (writtenBy id s.queued).map Job.origin ++
    (writtenBy id s.dropped).map Job.origin ++ inHand).Perm (writtenBy id s.arrived)
  order : ((writtenBy id s.queued).map Job.origin ++ inHand).Sublist (writtenBy id s.arrived)

/-- What a listener relies on. -/
def Listening.Relies (m id : ℕ) (s : Intake) : Listening → Prop
  | .got a => Filled s.heap (Intake.bufferOf id) a
  | .accepted a t =>
    Filled s.heap (Intake.bufferOf id) a ∧ ∃ d, serve a.received = some (d, t)
  | .enqueue j => j.Intact m s.heap ∧ j.ComesFrom id
  | .reading | .stopped => True

/-- What goroutine `id` relies on. -/
def Goroutine.Relies (m id : ℕ) (s : Intake) : Goroutine → Prop
  | .listener int buffer point =>
    id < m ∧ int = id / 2 ∧ buffer = Intake.bufferOf id ∧ s.Accounts id point.inHand ∧
      point.Relies m id s
  | .worker job =>
    (m ≤ id ∧ id < m + maxWorkers) ∧ (∀ j ∈ job, j.Intact m s.heap) ∧
      writtenBy id s.taken = (writtenBy id s.handled).map Prod.fst ++ job.toList

structure Intake.Sound (m : ℕ) (s : Intake) : Prop where
  buffers : ∀ id < m, (s.heap.array id).length = bufferSize
  jobs : ∀ j ∈ s.jobs, j.Intact m s.heap
  bounded : s.jobs.length ≤ maxQueueSize
  queued : ∀ e ∈ s.queued, e.1 < m ∧ e.2.ComesFrom e.1
  fifo : s.queued.map Prod.snd = s.taken.map Prod.snd ++ s.jobs
  taken : ∀ e ∈ s.taken, m ≤ e.1 ∧ e.1 < m + maxWorkers
  handled : ∀ e ∈ s.handled, (e.1, e.2.1) ∈ s.taken ∧ e.2.2 = e.2.1.origin.received

section Heaps
variable {m id : ℕ} {heap heap' : ArrayHeap UInt8}

/-- The heap changes in the buffer of `id` at most, or has new arrays. -/
inductive Changes (m id : ℕ) (heap : ArrayHeap UInt8) : ArrayHeap UInt8 → Prop
  | grows {heap' : ArrayHeap UInt8} (h : heap.ExtendsTo heap') : Changes m id heap heap'
  | fills (hid : id < m) (content : Bytes) (hlen : content.length = (heap.array id).length) :
      Changes m id heap (heap.write id content)

theorem Changes.refl (m id : ℕ) (heap : ArrayHeap UInt8) : Changes m id heap heap :=
  .grows (.refl heap)

theorem ref_lt_of_buffer {ref : ℕ} (hbuffer : (heap.array ref).length = bufferSize) :
    ref < heap.arrays.length := by
  by_contra hge
  rw [ArrayHeap.array_of_le (Nat.le_of_not_lt hge)] at hbuffer
  cases hbuffer

theorem Changes.array_ne {ref : ℕ} (hc : Changes m id heap heap') (hlt : ref < heap.arrays.length)
    (hne : ref ≠ id) : heap'.array ref = heap.array ref := by
  cases hc with
  | grows h => exact h.array hlt
  | fills _ content => exact ArrayHeap.array_write_ne hne content

theorem Changes.length_array {ref : ℕ} (hc : Changes m id heap heap')
    (hlt : ref < heap.arrays.length) : (heap'.array ref).length = (heap.array ref).length := by
  cases hc with
  | grows h => rw [h.array hlt]
  | fills _ content hlen =>
    by_cases href : ref = id
    · subst href
      rw [ArrayHeap.array_write hlen, hlen]
    · rw [ArrayHeap.array_write_ne href]

theorem Job.Intact.changes {j : Job} (hj : j.Intact m heap) (hc : Changes m id heap heap') :
    j.Intact m heap' := by
  cases hc with
  | grows h =>
    exact ⟨hj.behind, hj.holds.extendsTo h, (hj.holds.read_extendsTo h).trans hj.bytes⟩
  | fills hid content =>
    have hne : j.dhcpPacket.ref ≠ id := by
      have hbehind := hj.behind
      omega
    have hsame : (heap.write id content).array j.dhcpPacket.ref = heap.array j.dhcpPacket.ref :=
      ArrayHeap.array_write_ne hne content
    refine ⟨hj.behind, ?_, ?_⟩
    · rw [ArrayHeap.Holds, hsame]
      exact hj.holds
    · rw [ArrayHeap.read, hsame]
      exact hj.bytes

theorem Filled.changes {id' : ℕ} {a : Arrival} (hf : Filled heap (Intake.bufferOf id') a)
    (hbuffer : (heap.array id').length = bufferSize) (hne : id' ≠ id)
    (hc : Changes m id heap heap') : Filled heap' (Intake.bufferOf id') a := by
  have hsame : heap'.array id' = heap.array id' := hc.array_ne (ref_lt_of_buffer hbuffer) hne
  show slice _ _ (heap'.array id') = _
  rw [hsame]
  exact hf

/-- A read fills the front of the buffer. -/
theorem filled_write {a : Arrival} (hbuffer : (heap.array id).length = bufferSize) :
    Filled (heap.write id (copyInto 0 bufferSize a.payload (heap.array id))) (Intake.bufferOf id)
      a := by
  have hcopy : (copyInto 0 bufferSize a.payload (heap.array id)).length =
      (heap.array id).length := length_copyInto (by omega)
  have htake : copyInto 0 bufferSize a.payload (heap.array id) =
      copyInto 0 bufferSize a.received (heap.array id) := by
    simp only [copyInto, Arrival.received, List.take_take, Nat.min_self]
  have hlen : a.received.length = min a.payload.length bufferSize := by
    rw [Arrival.received, List.length_take, Nat.min_comm]
  show slice (0 + 0) (min a.payload.length bufferSize - 0)
    ((heap.write id (copyInto 0 bufferSize a.payload (heap.array id))).array id) = a.received
  rw [ArrayHeap.array_write hcopy, htake]
  exact slice_copyInto_front (by omega) (Nat.min_le_right _ _) hlen

end Heaps

/-! ## Steps -/

theorem serve_ne_nil {b : Bytes} {r : Datagram × MessageType} (h : serve b = some r) : b ≠ [] := by
  rintro rfl
  simp [serve] at h

section Steps
variable {m id : ℕ} {growth : Growth} {s s' : Intake}

/-- What the other goroutines see of a step of goroutine `id`. -/
structure Intake.Steps (m id : ℕ) (s s' : Intake) : Prop where
  heap : Changes m id s.heap s'.heap
  accounts : ∀ id' ≠ id, ∀ inHand, s.Accounts id' inHand → s'.Accounts id' inHand
  taken : ∀ id' ≠ id, writtenBy id' s'.taken = writtenBy id' s.taken
  handled : ∀ id' ≠ id, writtenBy id' s'.handled = writtenBy id' s.handled

theorem Goroutine.Relies.other {id' : ℕ} {t : Goroutine} (hs : s.Sound m) (hne : id' ≠ id)
    (ht : t.Relies m id' s) (hstep : s.Steps m id s') : t.Relies m id' s' := by
  cases t with
  | listener int buffer point =>
    obtain ⟨hid, hint, hbuffer, haccounts, hpoint⟩ := ht
    refine ⟨hid, hint, hbuffer, hstep.accounts id' hne _ haccounts, ?_⟩
    cases point with
    | reading => trivial
    | stopped => trivial
    | got a => exact Filled.changes hpoint (hs.buffers id' hid) hne hstep.heap
    | accepted a t =>
      exact ⟨Filled.changes hpoint.1 (hs.buffers id' hid) hne hstep.heap, hpoint.2⟩
    | enqueue j => exact ⟨hpoint.1.changes hstep.heap, hpoint.2⟩
  | worker job =>
    obtain ⟨hid, hintact, htaken⟩ := ht
    refine ⟨hid, fun j hj => (hintact j hj).changes hstep.heap, ?_⟩
    rw [hstep.taken id' hne, hstep.handled id' hne]
    exact htaken

/-- New contents of the heap and of the logs of the listeners. -/
theorem Intake.Sound.changes (hs : s.Sound m) {heap : ArrayHeap UInt8}
    (hc : Changes m id s.heap heap) (sockets : ℕ → List (Option Arrival))
    (arrived skipped : List (ℕ × Arrival)) (dropped : List (ℕ × Job)) :
    ({ s with
        heap := heap, sockets := sockets, arrived := arrived, skipped := skipped,
        dropped := dropped } : Intake).Sound m where
  buffers := fun ref href => by
    have hbuffer := hs.buffers ref href
    rw [← hbuffer]
    exact hc.length_array (ref_lt_of_buffer hbuffer)
  jobs := fun j hj => (hs.jobs j hj).changes hc
  bounded := hs.bounded
  queued := hs.queued
  fifo := hs.fifo
  taken := hs.taken
  handled := hs.handled

theorem Intake.Sound.offer (hs : s.Sound m) {j : Job} (hid : id < m) (hj : j.Intact m s.heap)
    (hfrom : j.ComesFrom id) : (s.offer id j).Sound m := by
  unfold Intake.offer
  split_ifs with hroom
  · refine ⟨hs.buffers, fun j' hj' => ?_, ?_, fun e he => ?_, ?_, hs.taken, hs.handled⟩
    · rcases List.mem_append.mp hj' with hj' | hj'
      · exact hs.jobs j' hj'
      · rw [List.mem_singleton] at hj'
        exact hj' ▸ hj
    · show (s.jobs ++ [j]).length ≤ maxQueueSize
      rw [List.length_append, List.length_singleton]
      omega
    · rcases List.mem_append.mp he with he | he
      · exact hs.queued e he
      · rw [List.mem_singleton] at he
        subst he
        exact ⟨hid, hfrom⟩
    · show (s.queued ++ [(id, j)]).map Prod.snd = s.taken.map Prod.snd ++ (s.jobs ++ [j])
      rw [List.map_append, hs.fifo, List.append_assoc]
      rfl
  · exact hs.changes (.refl m id s.heap) _ _ _ _

/-! ### One step of a listener -/

theorem Intake.Sound.le_arrays (hs : s.Sound m) : m ≤ s.heap.arrays.length := by
  by_contra hlt
  have hlast := ref_lt_of_buffer (hs.buffers s.heap.arrays.length (by omega))
  omega

theorem Intake.Accounts.read {a : Arrival} (h : s.Accounts id [])
    (heap : ArrayHeap UInt8) (sockets : ℕ → List (Option Arrival)) :
    ({ s with
        heap := heap, sockets := sockets, arrived := s.arrived ++ [(id, a)] } : Intake).Accounts id
      [a] where
  perm := by
    show (_ ++ [a]).Perm (writtenBy id (s.arrived ++ [(id, a)]))
    rw [writtenBy_own]
    exact (by simpa using h.perm : List.Perm _ _).append_right [a]
  order := by
    show (_ ++ [a]).Sublist (writtenBy id (s.arrived ++ [(id, a)]))
    rw [writtenBy_own]
    exact (by simpa using h.order : List.Sublist _ _).append_right [a]

theorem Intake.Accounts.skip {a : Arrival} (h : s.Accounts id [a]) :
    ({ s with skipped := s.skipped ++ [(id, a)] } : Intake).Accounts id [] where
  perm := by
    refine List.Perm.trans ?_ h.perm
    show (writtenBy id (s.skipped ++ [(id, a)]) ++ _ ++ _ ++ []).Perm _
    rw [writtenBy_own, List.append_nil]
    simp only [List.append_assoc]
    refine List.Perm.append_left _ ?_
    rw [← List.append_assoc (List.map _ _)]
    exact List.perm_append_comm
  order := (List.sublist_append_left _ _).trans (by simpa using h.order)

theorem Intake.Accounts.offer {j : Job} (h : s.Accounts id [j.origin]) :
    (s.offer id j).Accounts id [] := by
  unfold Intake.offer
  split_ifs with hroom
  · refine ⟨List.Perm.trans ?_ h.perm, ?_⟩
    · show (_ ++ (writtenBy id (s.queued ++ [(id, j)])).map Job.origin ++ _ ++ []).Perm _
      rw [writtenBy_own, List.map_append, List.append_nil]
      simp only [List.append_assoc, List.map_cons, List.map_nil]
      refine List.Perm.append_left _ (List.Perm.append_left _ ?_)
      exact List.perm_append_comm
    · show ((writtenBy id (s.queued ++ [(id, j)])).map Job.origin ++ []).Sublist _
      rw [writtenBy_own, List.map_append, List.append_nil]
      exact h.order
  · refine ⟨?_, (List.sublist_append_left _ _).trans (by simpa using h.order)⟩
    show (_ ++ (writtenBy id (s.dropped ++ [(id, j)])).map Job.origin ++ []).Perm _
    rw [writtenBy_own, List.map_append, List.append_nil, ← List.append_assoc]
    exact h.perm

/-- Entries of `id` do not count for the others. -/
theorem Intake.Accounts.congr {id' : ℕ} {inHand : List Arrival} (h : s.Accounts id' inHand)
    (harrived : writtenBy id' s'.arrived = writtenBy id' s.arrived)
    (hskipped : writtenBy id' s'.skipped = writtenBy id' s.skipped)
    (hqueued : writtenBy id' s'.queued = writtenBy id' s.queued)
    (hdropped : writtenBy id' s'.dropped = writtenBy id' s.dropped) : s'.Accounts id' inHand := by
  obtain ⟨hperm, horder⟩ := h
  rw [← harrived, ← hqueued] at horder
  rw [← harrived, ← hskipped, ← hqueued, ← hdropped] at hperm
  exact ⟨hperm, horder⟩

theorem Listening.step_keeps {point point' : Listening} (hs : s.Sound m) (hid : id < m)
    (haccounts : s.Accounts id point.inHand) (hpoint : point.Relies m id s)
    (hstep : point.step growth id (id / 2) (Intake.bufferOf id) s = some (s', point')) :
    s'.Sound m ∧ s.Steps m id s' ∧ s'.Accounts id point'.inHand ∧ point'.Relies m id s' := by
  have hbuffer := hs.buffers id hid
  cases point with
  | reading =>
    simp only [Listening.step] at hstep
    split at hstep
    · cases hstep
    · cases hstep
      exact ⟨hs.changes (.refl m id s.heap) _ _ _ _,
        ⟨.refl m id s.heap, fun _ _ _ h => h.congr rfl rfl rfl rfl, fun _ _ => rfl,
          fun _ _ => rfl⟩,
        haccounts.congr rfl rfl rfl rfl, trivial⟩
    · next a rest _ =>
      cases hstep
      have hfits : 0 + bufferSize ≤ (s.heap.array id).length := by omega
      have hchanges : Changes m id s.heap (s.readInto id (Intake.bufferOf id) a rest).heap :=
        .fills hid _ (length_copyInto hfits)
      refine ⟨hs.changes hchanges _ _ _ _,
        ⟨hchanges, fun id' hne _ h => h.congr (writtenBy_other (Ne.symm hne) _ _) rfl rfl rfl,
          fun _ _ => rfl, fun _ _ => rfl⟩, haccounts.read _ _, ?_⟩
      exact filled_write hbuffer
  | got a =>
    have hfilled : s.heap.read (Intake.request (Intake.bufferOf id) a) = a.received := hpoint
    simp only [Listening.step, hfilled] at hstep
    split at hstep
    · cases hstep
      exact ⟨hs.changes (.refl m id s.heap) _ _ _ _,
        ⟨.refl m id s.heap,
          fun id' hne _ h => h.congr rfl (writtenBy_other (Ne.symm hne) _ _) rfl rfl,
          fun _ _ => rfl, fun _ _ => rfl⟩, haccounts.skip, trivial⟩
    · next d t hserve =>
      cases hstep
      exact ⟨hs, ⟨.refl m id s.heap, fun _ _ _ h => h, fun _ _ => rfl, fun _ _ => rfl⟩, haccounts,
        hpoint, d, hserve⟩
  | accepted a t =>
    obtain ⟨hfilled, d, hserve⟩ := hpoint
    cases hstep
    have hread : s.heap.read (Intake.request (Intake.bufferOf id) a) = a.received := hfilled
    have hne : s.heap.read (Intake.request (Intake.bufferOf id) a) ≠ [] := by
      rw [hread]
      exact serve_ne_nil hserve
    obtain ⟨href, hextends⟩ := ArrayHeap.append_default growth s.heap hne
    have hnil : s.heap.Holds default := Nat.zero_le _
    obtain ⟨hholds, hcopy⟩ := ArrayHeap.append_spec growth hnil
      (s.heap.read (Intake.request (Intake.bufferOf id) a))
    have hgrows : Changes m id s.heap _ := .grows hextends
    refine ⟨hs.changes hgrows _ _ _ _, ⟨hgrows, fun _ _ _ h => h.congr rfl rfl rfl rfl,
      fun _ _ => rfl, fun _ _ => rfl⟩, haccounts.congr rfl rfl rfl rfl, ⟨?_, hholds, ?_⟩,
      ⟨d, hserve⟩, rfl, rfl⟩
    · exact hs.le_arrays.trans (Nat.le_of_eq href.symm)
    · exact hcopy.trans hread
  | enqueue j =>
    cases hstep
    refine ⟨hs.offer hid hpoint.1 hpoint.2, ?_, haccounts.offer, trivial⟩
    unfold Intake.offer
    split_ifs
    · exact ⟨.refl m id s.heap,
        fun id' hne _ h => h.congr rfl rfl (writtenBy_other (Ne.symm hne) _ _) rfl,
        fun _ _ => rfl, fun _ _ => rfl⟩
    · exact ⟨.refl m id s.heap,
        fun id' hne _ h => h.congr rfl rfl rfl (writtenBy_other (Ne.symm hne) _ _),
        fun _ _ => rfl, fun _ _ => rfl⟩
  | stopped => cases hstep

/-! ### One step of a worker -/

theorem Intake.Sound.take {j : Job} {rest : List Job} (hs : s.Sound m)
    (hid : m ≤ id ∧ id < m + maxWorkers) (hjobs : s.jobs = j :: rest) :
    ({ s with jobs := rest, taken := s.taken ++ [(id, j)] } : Intake).Sound m where
  buffers := hs.buffers
  jobs := fun j' hj' => hs.jobs j' (hjobs ▸ List.mem_cons_of_mem j hj')
  bounded := by
    have hbounded := hs.bounded
    rw [hjobs, List.length_cons] at hbounded
    exact Nat.le_of_succ_le hbounded
  queued := hs.queued
  fifo := by
    show s.queued.map Prod.snd = (s.taken ++ [(id, j)]).map Prod.snd ++ rest
    rw [hs.fifo, hjobs, List.map_append, List.append_assoc]
    rfl
  taken := fun e he => by
    rcases List.mem_append.mp he with he | he
    · exact hs.taken e he
    · rw [List.mem_singleton] at he
      exact he ▸ hid
  handled := fun e he => ⟨List.mem_append_left _ (hs.handled e he).1, (hs.handled e he).2⟩

theorem Intake.Sound.handle {j : Job} (hs : s.Sound m) (hj : j.Intact m s.heap)
    (htaken : (id, j) ∈ s.taken) :
    ({ s with handled := s.handled ++ [(id, j, s.heap.read j.dhcpPacket)] } : Intake).Sound m :=
  { hs with
    handled := fun e he => by
      rcases List.mem_append.mp he with he | he
      · exact hs.handled e he
      · rw [List.mem_singleton] at he
        subst he
        exact ⟨htaken, hj.bytes⟩ }

theorem Goroutine.step_keeps {t t' : Goroutine} (hs : s.Sound m) (ht : t.Relies m id s)
    (hstep : t.step growth id s = some (s', t')) :
    s'.Sound m ∧ s.Steps m id s' ∧ t'.Relies m id s' := by
  cases t with
  | listener int buffer point =>
    obtain ⟨hid, rfl, rfl, haccounts, hpoint⟩ := ht
    obtain ⟨⟨s₁, point'⟩, hlistening, hr⟩ := Option.map_eq_some_iff.mp hstep
    cases hr
    obtain ⟨hsound, hsteps, haccounts', hpoint'⟩ :=
      Listening.step_keeps hs hid haccounts hpoint hlistening
    exact ⟨hsound, hsteps, hid, rfl, rfl, haccounts', hpoint'⟩
  | worker job =>
    obtain ⟨hid, hintact, htaken⟩ := ht
    cases job with
    | none =>
      simp only [Goroutine.step] at hstep
      split at hstep
      · cases hstep
      · next j rest hjobs =>
        cases hstep
        refine ⟨hs.take hid hjobs, ⟨.refl m id s.heap, fun _ _ _ h => h.congr rfl rfl rfl rfl,
          fun id' hne => writtenBy_other (Ne.symm hne) _ _, fun _ _ => rfl⟩, hid, ?_, ?_⟩
        · intro j' hj'
          cases hj'
          exact hs.jobs j (hjobs ▸ List.mem_cons_self)
        · show writtenBy id (s.taken ++ [(id, j)]) = _
          rw [writtenBy_own, htaken, Option.toList_none, List.append_nil]
          rfl
    | some j =>
      cases hstep
      have hmem : (id, j) ∈ s.taken := by
        rw [← mem_writtenBy, htaken]
        simp
      refine ⟨hs.handle (hintact j rfl) hmem, ⟨.refl m id s.heap,
        fun _ _ _ h => h.congr rfl rfl rfl rfl, fun _ _ => rfl,
        fun id' hne => writtenBy_other (Ne.symm hne) _ _⟩, hid, ?_, ?_⟩
      · intro j' hj'
        cases hj'
      · show writtenBy id s.taken = (writtenBy id (s.handled ++ [(id, j, _)])).map Prod.fst ++ []
        rw [writtenBy_own, List.map_append, List.append_nil, htaken]
        rfl

theorem Intake.outside_keeps {e : Surroundings} (id : ℕ) (hs : s.Sound m)
    (h : s.outside e = some s') :
    s'.Sound m ∧ s.Steps m id s' := by
  have hsteps : ∀ heap sockets, Changes m id s.heap heap →
      s.Steps m id { s with heap := heap, sockets := sockets } := fun _ _ hc =>
    ⟨hc, fun _ _ _ h => h.congr rfl rfl rfl rfl, fun _ _ => rfl, fun _ _ => rfl⟩
  cases e with
  | deliver id' a =>
    cases h
    exact ⟨hs.changes (.refl m id s.heap) _ _ _ _, hsteps _ _ (.refl m id s.heap)⟩
  | alloc content =>
    cases h
    have hgrows : Changes m id s.heap (s.heap.new content).2 := .grows (ArrayHeap.extendsTo_new _ _)
    exact ⟨hs.changes hgrows _ _ _ _, hsteps _ _ hgrows⟩

end Steps

end StandaloneDHCP
