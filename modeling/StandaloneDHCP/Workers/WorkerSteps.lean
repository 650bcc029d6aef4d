import StandaloneDHCP.Lib.Interleaving
import StandaloneDHCP.Server.Leases

/-! The workers of `main.go` inside `ServeDHCP`: a hundred goroutines that handle packets of one
network at the same time. A `Point` stands before one access to what they share, which is one
method call on a cache or on the pool (each of them takes its own lock), one operation on
`GlobalTransactionLock`, or the start of a goroutine; it carries the local variables that are
still needed. Between two points the other workers, the janitor, the sleeping frees and the clock
can do anything.

`passed` and `log` are ghosts: the keys that passed the duplicate gate with the time they were
written, and for the leases a record when a packet has passed the gate and when an ACK writes the
hardware cache. -/
namespace StandaloneDHCP
open Lib
set_option autoImplicit false

/-- Where a worker is in `ServeDHCP`. -/
inductive Point
  -- the duplicate gate
  | lockGate
  | getGate
  | setGate
  | unlockGate (found : Bool)
  -- DISCOVER, up to the `retry` label
  | getCached
  | checkCached (x : Int)
  | deleteCached (x : Int)
  | reserveCached (x : Int)
  | replaceCached (free : Int)
  -- the block at the `retry` label
  | countFree (round : ℕ) (firstTry : Bool) (free : Int)
  | checkAsked (round : ℕ) (free : Int) (element : ℕ)
  | reserveAsked (round : ℕ) (free : Int) (element : ℕ)
  | grabNext (round : ℕ)
  | lockCandidate (round : ℕ) (free : Int)
  | setXid (round : ℕ) (free : Int)
  | deleteBusy (round : ℕ) (free : Int)
  | reserveBusy (round : ℕ) (free : Int)
  | sleepBusy (round : ℕ) (free : Int)
  | lockOffer (round : ℕ) (free : Int)
  | replaceXid (round : ℕ) (free : Int)
  -- REQUEST and INFORM
  | getRequested (addr : IPv4)
  | lockSeen (addr : IPv4) (index : Int)
  | getSeen (addr : IPv4) (index : Int)
  | checkOwner (addr : IPv4) (index : Int)
  | setSeen (addr : IPv4) (index : Int) (reply : Bool)
  | unlockSeen (addr : IPv4) (index : Int) (reply : Option Bool)
  | getXid
  | deleteMismatched
  | setIp (addr : IPv4) (index : Int) (reply : Reply)
  | setMac (addr : IPv4) (index : Int) (reply : Reply)
  | lockLease (index : Int) (reply : Reply)
  | reserveLease (index : Int) (reply : Reply)
  -- RELEASE and DECLINE
  | getRetired (leaseNum : Int)
  | checkRetired (leaseNum : Int)
  | reserveRetired (leaseNum : Int)
  | sleepRetired (leaseNum : Int)
  | goDelete
  | done (answer : Answer)

/-- One call of `ServeDHCP`: the packet, what its handling reads outside the server, and the
answer it starts with. -/
structure Worker where
  p : Packet
  t : MessageType
  env : Env
  answer : Answer
  point : Point

/-- What the workers share. `locked`: the worker that holds `GlobalTransactionLock`; `deletes`:
the goroutines of RELEASE and DECLINE that have not deleted their entry yet. -/
structure Shared where
  now : Int
  globals : Globals
  handler : DHCPHandler
  locked : Option ℕ
  deletes : List String
  passed : List (String × Int)
  log : List Record

/-- What one access does. `read` is any call that changes nothing. -/
inductive Access
  | read
  | acquire
  | release
  | pass
  | noteRequest
  | setIp (addr : IPv4)
  | setMac (addr : IPv4)
  | lock (index d : Int)
  | lease (index : Int) (reply : Reply)
  | evict
  | reserve (index : ℕ) (mac : String)
  | grab (choice : Choice)
  | setXid
  | replaceXid
  | sleep (index : Int)
  | goDelete
  | stop

namespace Shared

def setHandler (s : Shared) (h : DHCPHandler) : Shared := { s with handler := h }

def setPool (s : Shared) (available : DHCPPool) : Shared :=
  s.setHandler { s.handler with available := available }

/-- `ReserveIPIndex` returns no error and the MAC it was given. -/
def Reserves (s : Shared) (index : ℕ) (mac : String) : Prop :=
  (s.handler.available.reserveIPIndex index mac).2.1 = none ∧
    (s.handler.available.reserveIPIndex index mac).2.2 = mac

instance (s : Shared) (index : ℕ) (mac : String) : Decidable (s.Reserves index mac) :=
  inferInstanceAs (Decidable (_ ∧ _))

/-- `GlobalTransactionCache.Set`: the packet passes the gate. -/
def pass (s : Shared) (k : Worker) : Shared :=
  let cache := s.globals.globalTransactionCache.set s.now (k.p.cacheKey k.t) 1 (1 * second)
  { s with
    globals := { s.globals with globalTransactionCache := cache }
    passed := (k.p.cacheKey k.t, s.now) :: s.passed
    log := ⟨s.now, k.p.clientMac, k.t, {}⟩ :: s.log }

/-- `RequestGlobalTransactionCache.Set`. -/
def noteRequest (s : Shared) (k : Worker) : Shared :=
  let cache := s.globals.requestGlobalTransactionCache.set s.now (k.p.cacheKey k.t) 1 (1 * second)
  { s with globals := { s.globals with requestGlobalTransactionCache := cache } }

/-- `GlobalIpCache.Set`. -/
def setIp (s : Shared) (k : Worker) (addr : IPv4) : Shared :=
  let cache := s.globals.globalIpCache.set s.now (ipString addr) k.p.clientMac
    (s.handler.leaseDuration + 15 * second)
  { s with globals := { s.globals with globalIpCache := cache } }

/-- `GlobalMacCache.Set`. -/
def setMac (s : Shared) (k : Worker) (addr : IPv4) : Shared :=
  let cache := s.globals.globalMacCache.set s.now k.p.clientMac (ipString addr)
    (s.handler.leaseDuration + 15 * second)
  { s with globals := { s.globals with globalMacCache := cache } }

/-- The `hwcache.Set` of the ACK branch, which starts the lease. -/
def lease (s : Shared) (k : Worker) (index : Int) (reply : Reply) : Shared :=
  { s.setHandler (s.handler.lock s.now k.p.clientMac index
      (s.handler.leaseDuration + 15 * second)) with
    log := ⟨s.now, k.p.clientMac, k.t, { k.answer with d := some reply }⟩ :: s.log }

/-- `go func() { time.Sleep(10 * time.Minute); FreeIPIndex(index) }`. -/
def sleep (s : Shared) (index : Int) : Shared :=
  s.setHandler { s.handler with
    tasks := s.handler.tasks ++ [⟨s.now + 10 * minute, index, .quarantine⟩] }

/-- The access of worker `id`; `none` where it has to wait, or has returned. -/
def access (s : Shared) (id : ℕ) (k : Worker) : Access → Option Shared
  | .read => some s
  | .acquire => if s.locked = none then some { s with locked := some id } else none
  | .release => some { s with locked := none }
  | .pass => some (s.pass k)
  | .noteRequest => some (s.noteRequest k)
  | .setIp addr => some (s.setIp k addr)
  | .setMac addr => some (s.setMac k addr)
  | .lock index d => some (s.setHandler (s.handler.lock s.now k.p.clientMac index d))
  | .lease index reply => some (s.lease k index reply)
  | .evict => some (s.setHandler (s.handler.evict s.now k.p.clientMac))
  | .reserve index mac => some (s.setPool (s.handler.available.reserveIPIndex index mac).1)
  | .grab choice => some (s.setPool (s.handler.available.getFreeIPIndex choice k.p.clientMac).1)
  | .setXid => some (s.setHandler (s.handler.setXid s.now k.p))
  | .replaceXid => some (s.setHandler (s.handler.replaceXid s.now k.p))
  | .sleep index => some (s.sleep index)
  | .goDelete => some { s with deletes := s.deletes ++ [k.p.clientMac] }
  | .stop => none

end Shared

namespace Worker

abbrev mac (k : Worker) : String := k.p.clientMac

def goto (k : Worker) (point : Point) : Worker := { k with point := point }

section Goto
variable (k : Worker) (c : Point)

@[simp] theorem goto_p : (k.goto c).p = k.p := rfl

@[simp] theorem goto_t : (k.goto c).t = k.t := rfl

@[simp] theorem goto_env : (k.goto c).env = k.env := rfl

@[simp] theorem goto_answer : (k.goto c).answer = k.answer := rfl

@[simp] theorem goto_point : (k.goto c).point = c := rfl

@[simp] theorem goto_mac : (k.goto c).mac = k.mac := rfl

end Goto

/-- `answer` after `answer.IP = reqIP`. -/
def requested (k : Worker) : Answer := { k.answer with ip := k.p.reqIP }

def nak (k : Worker) (h : DHCPHandler) : Answer := { k.requested with d := some (nakReply h) }

/-- The start of the ACK branch: a panic while the options are built ends the handling. -/
def acknowledge (k : Worker) (h : DHCPHandler) (networkIP : String) (addr : IPv4) (index : Int) :
    Point :=
  match buildReplyOptions k.env.toReplyEnv h.options k.p networkIP k.mac with
  | none => .done k.requested
  | some options => .setIp addr index {
      messageType := .ack
      serverId := h.ip
      yiaddr := some addr
      leaseDuration := h.leaseDuration
      options := selectOrderOrAll k.env.toReplyEnv options (options optionParameterRequestList) }

/-- The REQUEST case up to its first access. -/
def request (k : Worker) (h : DHCPHandler) (networkIP : String) : Point :=
  if namesOtherServer h k.p then .done {}
  else
    match validAddress k.p.reqIP with
    | none => .done (k.nak h)
    | some addr =>
      let leaseNum := ipRange h.start addr - 1
      if 0 ≤ leaseNum ∧ leaseNum < h.leaseRange then
        match h.ipAssigned.lookup k.mac with
        | some position =>
          if (position.toNat : Int) = leaseNum then k.acknowledge h networkIP addr position.toNat
          else .done (k.nak h)
        | none => .getRequested addr
      else .done (k.nak h)

/-- The RELEASE and the DECLINE case up to their first access. -/
def retire (k : Worker) (h : DHCPHandler) : Point :=
  match (to4 k.p.reqIP).bind beUint32 with
  | none => .done k.answer
  | some addr =>
    let leaseNum := ipRange h.start addr - 1
    if 0 ≤ leaseNum ∧ leaseNum < h.leaseRange then .getRetired leaseNum else .done k.answer

/-- The message switch up to its first access. -/
def dispatch (k : Worker) (h : DHCPHandler) (networkIP : String) : Point :=
  match k.t with
  | .discover =>
    match h.ipAssigned.lookup k.mac with
    | some position => .done (replyOffer k.env h networkIP k.p k.answer position.toNat)
    | none => .getCached
  | .request | .inform => k.request h networkIP
  | .release | .decline => k.retire h
  | .offer | .ack | .nak => .done { k.answer with d := some (nakReply h) }

/-- `if free == -1`. -/
def candidate (round : ℕ) (free : Int) : Point :=
  if free = -1 then .grabNext round else .lockCandidate round free

/-- The access a worker makes next, and the point it is at afterwards. -/
def next (networkIP : String) (s : Shared) (k : Worker) : Access × Point :=
  match k.point with
  | .lockGate => (.acquire, .getGate)
  | .getGate =>
    match s.globals.globalTransactionCache.get s.now (k.p.cacheKey k.t) with
    | some _ => (.read, .unlockGate true)
    | none => (.read, .setGate)
  | .setGate => (.pass, .unlockGate false)
  | .unlockGate found =>
    (.release, if found then .done k.answer else k.dispatch s.handler networkIP)
  | .getCached =>
    match s.handler.hwcache.get s.now k.mac with
    | none => (.read, .countFree 0 true (-1))
    | some x => (.read, .checkCached x)
  | .checkCached x =>
    if s.handler.ownerOf x = k.mac then (.read, .replaceCached x)
    else if s.handler.ownerOf x = FreeMac then (.read, .deleteCached x)
    else (.read, .countFree 0 true (-1))
  | .deleteCached x => (.evict, .reserveCached x)
  | .reserveCached x =>
    (.reserve (safeIntToUint64 x) k.mac,
      if s.Reserves (safeIntToUint64 x) k.mac then .replaceCached x else .countFree 0 true (-1))
  | .replaceCached free =>
    match s.handler.hwcache.replace s.now k.mac free (5 * second) with
    | none => (.read, .done k.answer)
    | some _ => (.lock free (5 * second),
        .done (replyOffer k.env s.handler networkIP k.p k.answer free))
  | .countFree round firstTry free =>
    if s.handler.available.freeIPsRemaining = 0 then (.read, .done k.answer)
    else
      match k.p.options optionRequestedIPAddress, firstTry with
      | some v, true =>
        match beUint32 v with
        | none => (.read, .done k.answer)
        | some a => (.read, .checkAsked round free (a - s.handler.start).toNat)
      | _, _ => (.read, candidate round free)
  | .checkAsked round free element =>
    if s.handler.ownerOf element = k.mac then (.read, .lockCandidate round element)
    else if s.handler.ownerOf element = FreeMac then (.read, .reserveAsked round free element)
    else (.read, .countFree round false free)
  | .reserveAsked round free element =>
    (.reserve element k.mac,
      if s.Reserves element k.mac then .lockCandidate round element else candidate round free)
  | .grabNext round =>
    match s.handler.available.getFreeIPIndex (k.env.choice round) k.mac with
    | (_, freeu64, _, none) =>
      (.grab (k.env.choice round), .lockCandidate round (safeUint64ToInt freeu64))
    | (_, _, _, some _) => (.read, .done k.answer)
  | .lockCandidate round free => (.lock free (5 * second), .setXid round free)
  | .setXid round free =>
    (.setXid, if k.env.ping round (ipAdd s.handler.start free) then .deleteBusy round free
      else .lockOffer round free)
  | .deleteBusy round free => (.evict, .reserveBusy round free)
  | .reserveBusy round free => (.reserve (safeIntToUint64 free) FakeMac, .sleepBusy round free)
  | .sleepBusy round free => (.sleep free, .countFree (round + 1) false 0)
  | .lockOffer round free => (.lock free (5 * second), .replaceXid round free)
  | .replaceXid _ free =>
    (.replaceXid, .done (replyOffer k.env s.handler networkIP k.p k.answer free))
  | .getRequested addr =>
    match s.handler.hwcache.get s.now k.mac with
    | none => (.read, .done {})
    | some index =>
      if ipAdd s.handler.start index = addr then (.read, .lockSeen addr index)
      else (.read, .getXid)
  | .lockSeen addr index => (.acquire, .getSeen addr index)
  | .getSeen addr index =>
    match s.globals.requestGlobalTransactionCache.get s.now (k.p.cacheKey k.t) with
    | some _ => (.read, .unlockSeen addr index none)
    | none => (.read, .checkOwner addr index)
  | .checkOwner addr index =>
    (.read, .setSeen addr index (decide (s.handler.ownerOf index = k.mac)))
  | .setSeen addr index reply => (.noteRequest, .unlockSeen addr index (some reply))
  | .unlockSeen addr index reply =>
    (.release, match reply with
      | none => .done k.requested
      | some true => k.acknowledge s.handler networkIP addr index
      | some false => .done (k.nak s.handler))
  | .getXid =>
    match s.handler.xid.get s.now (toString k.p.xid.toNat) with
    | some 1 => (.read, .deleteMismatched)
    | _ => (.read, .done (k.nak s.handler))
  | .deleteMismatched => (.evict, .done (k.nak s.handler))
  | .setIp addr index reply => (.setIp addr, .setMac addr index reply)
  | .setMac addr index reply => (.setMac addr, .lockLease index reply)
  | .lockLease index reply => (.lease index reply, .reserveLease index reply)
  | .reserveLease index reply =>
    (.reserve (safeIntToUint64 index) k.mac, .done { k.requested with d := some reply })
  | .getRetired leaseNum =>
    match s.handler.hwcache.get s.now k.mac with
    | none => (.read, .done k.answer)
    | some x => (.read, if leaseNum = x then .checkRetired leaseNum else .done k.answer)
  | .checkRetired leaseNum =>
    (.read, if s.handler.ownerOf leaseNum = k.mac then .reserveRetired leaseNum
      else .done k.answer)
  | .reserveRetired leaseNum =>
    (.reserve (safeIntToUint64 leaseNum) FakeMac, .sleepRetired leaseNum)
  | .sleepRetired leaseNum => (.sleep leaseNum, .goDelete)
  | .goDelete => (.goDelete, .done k.answer)
  | .done answer => (.stop, .done answer)

/-- One access of worker `id`. `none`: it waits for the lock, or it has returned. -/
def step (networkIP : String) (id : ℕ) (s : Shared) (k : Worker) : Option (Shared × Worker) :=
  (s.access id k (k.next networkIP s).1).map fun s' => (s', k.goto (k.next networkIP s).2)

/-- `ServeDHCP` is called on a packet that the network selects. -/
def call (p : Packet) (t : MessageType) (env : Env) (ipv4 : Option IPv4) : Worker where
  p := p
  t := t
  env := env
  answer := { mac := p.chaddr, srcIP := ipv4 }
  point := .lockGate

end Worker

/-- What changes the shared state besides the workers: the clock, the janitors of the hardware
cache and of the gate, a sleeping free, and the deletion that a RELEASE has started. -/
inductive Outside
  | tick (d : ℕ)
  | purge
  | purgeGate
  | fire (k : ℕ)
  | delete (k : ℕ)

def Shared.outside (s : Shared) : Outside → Option Shared
  | .tick d => some { s with now := s.now + d }
  | .purge => some (s.setHandler (s.handler.purge s.now))
  | .purgeGate => some { s with globals := { s.globals with globalTransactionCache :=
      (s.globals.globalTransactionCache.deleteExpired s.now).1 } }
  | .fire k =>
    match s.handler.tasks[k]? with
    | some task =>
      if task.due ≤ s.now then some (s.setHandler (s.handler.fire s.now k task)) else none
    | none => none
  | .delete k =>
    match s.deletes[k]? with
    | some mac => some { s.setHandler (s.handler.evict s.now mac) with
        deletes := s.deletes.eraseIdx k }
    | none => none

def Shared.init (h : DHCPHandler) (now : Int) : Shared where
  now := now
  globals := Globals.init
  handler := h
  locked := none
  deletes := []
  passed := []
  log := []

/-- The server with its workers: any number of packets in progress. -/
abbrev Serving := Threads Shared Worker

namespace Serving

abbrev Turn := Sched Worker Outside

def step (networkIP : String) (c : Serving) (e : Turn) : Option Serving :=
  Threads.step (Worker.step networkIP) Shared.outside c e

def init (cfg : ScopeConfig) (now : Int) : Serving where
  shared := Shared.init (readConfig cfg) now
  locals := []

/-- A new worker starts at the gate. -/
def Starts : Turn → Prop
  | .start k => k.point = .lockGate
  | _ => True

/-- The configurations that interleaved handling reaches from a fresh server, by turns that all
meet `ok`. -/
def RunsTo (networkIP : String) (ok : Serving → Turn → Prop) (cfg : ScopeConfig) (now : Int)
    (c : Serving) : Prop :=
  Reaches (step networkIP) (fun c e => Starts e ∧ ok c e) (init cfg now) c

end Serving

/-! ## What one access leaves alone -/

theorem Worker.step_eq_some {networkIP : String} {id : ℕ} {s s' : Shared} {k k' : Worker}
    (h : Worker.step networkIP id s k = some (s', k')) :
    s.access id k (k.next networkIP s).1 = some s' ∧ k' = k.goto (k.next networkIP s).2 := by
  obtain ⟨s₁, hs, heq⟩ := Option.map_eq_some_iff.mp h
  cases heq
  exact ⟨hs, rfl⟩

namespace Shared
variable {id : ℕ} {k : Worker} {s s' : Shared}

theorem access_acquire (h : s.access id k .acquire = some s') :
    s.locked = none ∧ s' = { s with locked := some id } := by
  simp only [access] at h
  split at h
  · next hfree =>
    cases h
    exact ⟨hfree, rfl⟩
  · cases h

theorem access_now {a : Access} (h : s.access id k a = some s') : s'.now = s.now := by
  cases a with
  | acquire =>
    obtain ⟨-, rfl⟩ := access_acquire h
    rfl
  | stop => cases h
  | _ =>
    cases h
    rfl

theorem access_settings {a : Access} (h : s.access id k a = some s') :
    s'.handler.settings = s.handler.settings := by
  cases a with
  | acquire =>
    obtain ⟨-, rfl⟩ := access_acquire h
    rfl
  | evict =>
    cases h
    exact s.handler.evict_settings s.now _
  | stop => cases h
  | _ =>
    cases h
    rfl

/-- No access frees an index or takes one from its owner. -/
theorem access_pool (hwf : s.handler.available.WellFormed) {a : Access}
    (h : s.access id k a = some s') :
    s'.handler.available = s.handler.available ∨
      ∃ i m, i ∈ s.handler.available.free ∧
        s'.handler.available = s.handler.available.grant i m := by
  cases a with
  | acquire =>
    obtain ⟨-, rfl⟩ := access_acquire h
    exact .inl rfl
  | evict =>
    cases h
    exact .inl (s.handler.evict_available s.now _)
  | reserve index mac =>
    cases h
    obtain ⟨hfree, -, heq⟩ | ⟨-, heq, -⟩ := s.handler.available.reserveIPIndex_cases index mac
    · exact .inr ⟨index, mac, hfree, by simp only [setPool, setHandler, heq]⟩
    · exact .inl heq
  | grab choice =>
    cases h
    by_cases hfull : s.handler.available.free.card = 0
    · exact .inl (by simp [setPool, setHandler, DHCPPool.getFreeIPIndex_full _ _ hfull])
    · obtain ⟨i, hfree, heq⟩ := DHCPPool.getFreeIPIndex_ok hwf choice k.p.clientMac hfull
      exact .inr ⟨i, k.p.clientMac, hfree, by simp only [setPool, setHandler, heq]⟩
  | stop => cases h
  | _ =>
    cases h
    exact .inl rfl

end Shared

/-! ## Where the switch leads -/

namespace Worker
variable {k : Worker} {h : DHCPHandler} {networkIP : String}

theorem acknowledge_cases {P : Point → Prop} {addr : IPv4} {index : Int}
    (hdone : P (.done k.requested))
    (hreply : ∀ reply : Reply, reply.messageType = .ack → reply.yiaddr = some addr →
      P (.setIp addr index reply)) : P (k.acknowledge h networkIP addr index) := by
  unfold acknowledge
  split
  · exact hdone
  · exact hreply _ rfl rfl

/-- The first point after the gate. -/
theorem dispatch_cases {P : Point → Prop} (hdone : ∀ answer, P (.done answer))
    (hcached : h.ipAssigned.lookup k.mac = none → P .getCached)
    (hstatic : ∀ addr position, h.ipAssigned.lookup k.mac = some position →
      ipRange h.start addr - 1 = (position.toNat : Int) →
      P (k.acknowledge h networkIP addr position.toNat))
    (hrequested : ∀ addr, h.ipAssigned.lookup k.mac = none → P (.getRequested addr))
    (hretired : ∀ addr, 0 ≤ ipRange h.start addr - 1 →
      P (.getRetired (ipRange h.start addr - 1))) : P (k.dispatch h networkIP) := by
  have hretire : P (k.retire h) := by
    unfold retire
    split
    · exact hdone _
    · dsimp only
      split_ifs with hrange
      · exact hretired _ hrange.1
      · exact hdone _
  have hrequest : P (k.request h networkIP) := by
    unfold request
    split_ifs
    · exact hdone _
    split
    · exact hdone _
    dsimp only
    split_ifs
    · split
      · next position hlookup =>
        split_ifs with hpos
        · exact hstatic _ position hlookup hpos.symm
        · exact hdone _
      · next hlookup => exact hrequested _ hlookup
    · exact hdone _
  unfold dispatch
  cases k.t with
  | discover =>
    dsimp only
    split
    · exact hdone _
    · next hlookup => exact hcached hlookup
  | request => exact hrequest
  | inform => exact hrequest
  | release => exact hretire
  | decline => exact hretire
  | offer => exact hdone _
  | ack => exact hdone _
  | nak => exact hdone _

theorem candidate_cases {P : Point → Prop} {round : ℕ} {free : Int}
    (hgrab : free = -1 → P (.grabNext round))
    (hlock : free ≠ -1 → P (.lockCandidate round free)) : P (candidate round free) := by
  unfold candidate
  split_ifs with hfree
  · exact hgrab hfree
  · exact hlock hfree

end Worker
end StandaloneDHCP
