import StandaloneDHCP.Workers.DuplicateGate

/-! Leases under interleaving. Between the test that an index belongs to the client and the answer
that is built on it, other workers run. None of their accesses takes an index from its owner, so
the test stays true (`Shared.access_owner`); the one thing that breaks it is a sleeping
`FreeIPIndex` that fires in between. Where no free fires on an index that a worker is handling or a
lease in force is on, no address is leased to two clients without a static assignment, in whatever
order the accesses of the workers happen. -/
namespace StandaloneDHCP
open Lib
set_option autoImplicit false

/-! ## What a point carries -/

namespace Point

/-- The index variables of the point; `free` counts once it is not `-1`. -/
def indexes : Point → List Int
  | .checkCached x | .deleteCached x | .reserveCached x | .replaceCached x => [x]
  | .countFree _ _ free => if free = -1 then [] else [free]
  | .checkAsked _ free element | .reserveAsked _ free element =>
    if free = -1 then [(element : Int)] else [free, (element : Int)]
  | .lockCandidate _ free | .setXid _ free | .deleteBusy _ free | .reserveBusy _ free
  | .sleepBusy _ free | .lockOffer _ free | .replaceXid _ free => [free]
  | .lockSeen _ index | .getSeen _ index | .checkOwner _ index | .setSeen _ index _
  | .unlockSeen _ index _ | .setIp _ index _ | .setMac _ index _ | .lockLease index _
  | .reserveLease index _ => [index]
  | .getRetired leaseNum | .checkRetired leaseNum | .reserveRetired leaseNum
  | .sleepRetired leaseNum => [leaseNum]
  | _ => []

/-- The index that the handling goes on with because it is the client's: the pool has said so, or
has just granted it. A DISCOVER has one up to its first ping conflict; after that the source goes on
with index 0 untested, whoever it belongs to. -/
def held : Point → Option Int
  | .replaceCached free => some free
  | .lockCandidate 0 free | .setXid 0 free | .lockOffer 0 free | .replaceXid 0 free => some free
  | .setSeen _ index true | .unlockSeen _ index (some true) => some index
  | .setIp _ index _ | .setMac _ index _ | .lockLease index _ | .reserveLease index _ => some index
  | _ => none

/-- Before the first conflict `free` is still `-1`, and in the REQUEST case the requested address is
the one of the index. -/
def Coherent (start : IPv4) : Point → Prop
  | .countFree round _ free | .checkAsked round free _ | .reserveAsked round free _ =>
    round = 0 → free = -1
  | .lockSeen addr index | .getSeen addr index | .checkOwner addr index | .setSeen addr index _
  | .unlockSeen addr index _ => ipAdd start index = addr
  | .setIp addr index reply | .setMac addr index reply =>
    ipAdd start index = addr ∧ reply.messageType = .ack ∧ reply.yiaddr = some addr
  | .lockLease index reply | .reserveLease index reply =>
    reply.messageType = .ack ∧ reply.yiaddr = some (ipAdd start index)
  | _ => True

end Point

/-- The indexes that an access puts into the cache or into a task. -/
def Access.indexes : Access → List Int
  | .lock index _ | .lease index _ | .sleep index => [index]
  | _ => []

/-! ## The shared state -/

namespace Shared
variable {id : ℕ} {k : Worker} {s s' : Shared}

/-- What holds of the handler whatever happens. -/
structure Regular (cfg : ScopeConfig) (s : Shared) : Prop where
  sound : s.handler.Sound
  offsets : s.handler.Indexes IsOffset
  settings : s.handler.settings = (readConfig cfg).settings

theorem access_owner (hwf : s.handler.available.WellFormed) {a : Access}
    (h : s.access id k a = some s') {i : ℕ} {m : String}
    (hi : s.handler.available.mac.lookup i = some m) :
    s'.handler.available.mac.lookup i = some m := by
  obtain heq | ⟨j, o, hfree, heq⟩ := access_pool hwf h
  · rw [heq]
    exact hi
  · rw [heq]
    exact DHCPPool.lookup_grant_of_owned hwf hfree hi

theorem access_sound (hs : s.handler.Sound) {a : Access} (h : s.access id k a = some s') :
    s'.handler.Sound := by
  have hset := access_settings h
  have hstart := DHCPHandler.start_of_settings hset
  have hrange := DHCPHandler.leaseRange_of_settings hset
  obtain heq | ⟨i, m, hfree, heq⟩ := access_pool hs.pool h
  · exact ⟨by rw [heq]; exact hs.pool, by rw [hrange, heq]; exact hs.range,
      by rw [hstart, heq]; exact hs.fits⟩
  · exact ⟨by rw [heq]; exact hs.pool.grant hfree m, by rw [hrange, heq]; exact hs.range,
      by rw [hstart, heq]; exact hs.fits⟩

theorem access_offsets (hoff : s.handler.Indexes IsOffset) {a : Access}
    (ha : ∀ x ∈ a.indexes, IsOffset x) (h : s.access id k a = some s') :
    s'.handler.Indexes IsOffset := by
  cases a with
  | acquire =>
    obtain ⟨-, rfl⟩ := access_acquire h
    exact hoff
  | lock index d =>
    cases h
    exact hoff.lock s.now _ (ha index (List.mem_singleton.mpr rfl)) d
  | lease index reply =>
    cases h
    exact hoff.lock s.now _ (ha index (List.mem_singleton.mpr rfl)) _
  | evict =>
    cases h
    exact hoff.evict s.now _
  | sleep index =>
    cases h
    refine ⟨hoff.cached, fun task htask => ?_⟩
    rcases List.mem_append.mp htask with hold | hnew
    · exact hoff.pending task hold
    · rw [List.mem_singleton.mp hnew]
      exact ha index (List.mem_singleton.mpr rfl)
  | stop => cases h
  | _ =>
    cases h
    exact ⟨hoff.cached, hoff.pending⟩

theorem lookup_of_reserves {index : ℕ} {mac : String} (hr : s.Reserves index mac)
    (h : s.access id k (.reserve index mac) = some s') :
    s'.handler.available.mac.lookup index = some mac := by
  cases h
  obtain ⟨-, -, heq⟩ | ⟨-, -, herr⟩ := s.handler.available.reserveIPIndex_cases index mac
  · show (s.handler.available.reserveIPIndex index mac).1.mac.lookup index = some mac
    rw [heq]
    exact Finmap.lookup_insert _
  · exact absurd hr.1 herr

end Shared

theorem grab_ok {dp dp' : DHCPPool} (hwf : dp.WellFormed) {choice : Choice} {mac m : String}
    {i : ℕ} (h : dp.getFreeIPIndex choice mac = (dp', i, m, none)) :
    i ∈ dp.free ∧ dp' = dp.grant i mac := by
  by_cases hfull : dp.free.card = 0
  · rw [DHCPPool.getFreeIPIndex_full choice mac hfull] at h
    cases h
  · obtain ⟨j, hj, heq⟩ := DHCPPool.getFreeIPIndex_ok hwf choice mac hfull
    rw [heq] at h
    cases h
    exact ⟨hj, rfl⟩

theorem DHCPHandler.Sound.free_index {h : DHCPHandler} (hs : h.Sound) {i : ℕ}
    (hi : i ∈ h.available.free) : i < 2 ^ 32 ∧ safeUint64ToInt i = i := by
  have hlt := hs.pool.free_lt hi
  have hfits := hs.fits
  refine ⟨by omega, safeUint64ToInt_of_le ?_⟩
  unfold maxInt
  omega

/-! ## One step of a worker -/

section Points
variable {networkIP : String} {s s' : Shared} {k : Worker} {id : ℕ} {cfg : ScopeConfig}

theorem acknowledge_indexes (k : Worker) (networkIP : String) (h : DHCPHandler) (addr : IPv4)
    {index : Int} (hi : IsOffset index) :
    ∀ x ∈ (k.acknowledge h networkIP addr index).indexes, IsOffset x :=
  Worker.acknowledge_cases (P := fun c => ∀ x ∈ c.indexes, IsOffset x) (List.forall_mem_nil _)
    fun _ _ _ => List.forall_mem_singleton.mpr hi

theorem candidate_indexes (round : ℕ) {free : Int} (hi : free ≠ -1 → IsOffset free) :
    ∀ x ∈ (Worker.candidate round free).indexes, IsOffset x :=
  Worker.candidate_cases (P := fun c => ∀ x ∈ c.indexes, IsOffset x)
    (fun _ => List.forall_mem_nil _) fun hne => List.forall_mem_singleton.mpr (hi hne)

theorem dispatch_indexes (k : Worker) (networkIP : String) (h : DHCPHandler) :
    ∀ x ∈ (k.dispatch h networkIP).indexes, IsOffset x := by
  refine Worker.dispatch_cases (P := fun c => ∀ x ∈ c.indexes, IsOffset x)
    (fun _ => List.forall_mem_nil _) (fun _ => List.forall_mem_nil _)
    (fun addr position _ _ => acknowledge_indexes k networkIP h addr (isOffset_toNat position))
    (fun _ _ => List.forall_mem_nil _) fun addr hpos => ?_
  refine List.forall_mem_singleton.mpr ⟨hpos, ?_⟩
  have hlt := addr.isLt
  unfold ipRange
  omega

/-- `free` is an offset once it is not `-1`. -/
theorem free_of_indexes {free : Int} (rest : List Int)
    (hk : ∀ x ∈ (if free = -1 then rest else free :: rest), IsOffset x) (hne : free ≠ -1) :
    IsOffset free := by
  rw [if_neg hne] at hk
  exact hk free List.mem_cons_self

theorem rest_of_indexes {free : Int} (rest : List Int)
    (hk : ∀ x ∈ (if free = -1 then rest else free :: rest), IsOffset x) :
    ∀ x ∈ rest, IsOffset x := by
  intro x hx
  split at hk
  · exact hk x hx
  · exact hk x (List.mem_cons_of_mem _ hx)

theorem next_indexes (hs : s.Regular cfg) (hk : ∀ x ∈ k.point.indexes, IsOffset x) :
    (∀ x ∈ (k.next networkIP s).1.indexes, IsOffset x) ∧
      ∀ x ∈ (k.next networkIP s).2.indexes, IsOffset x := by
  have hnil : ∀ x ∈ ([] : List Int), IsOffset x := List.forall_mem_nil _
  unfold Worker.next
  generalize k.point = point at hk
  cases point with
  | unlockGate found =>
    cases found with
    | true => exact ⟨hnil, hnil⟩
    | false => exact ⟨hnil, dispatch_indexes k networkIP s.handler⟩
  | getCached =>
    dsimp only
    split
    · exact ⟨hnil, hnil⟩
    · next x hget => exact ⟨hnil, List.forall_mem_singleton.mpr (hs.offsets.of_get hget)⟩
  | getRequested addr =>
    dsimp only
    split
    · exact ⟨hnil, hnil⟩
    · next index hget =>
      split_ifs
      · exact ⟨hnil, List.forall_mem_singleton.mpr (hs.offsets.of_get hget)⟩
      · exact ⟨hnil, hnil⟩
  | countFree round firstTry free =>
    have hfree := free_of_indexes [] hk
    dsimp only
    split_ifs
    · exact ⟨hnil, hnil⟩
    split
    · split
      · exact ⟨hnil, hnil⟩
      · next a _ =>
        refine ⟨hnil, fun x hx => ?_⟩
        simp only [Point.indexes] at hx
        split_ifs at hx with hne
        · rw [List.mem_singleton.mp hx]
          exact isOffset_toNat _
        · rcases List.mem_cons.mp hx with rfl | hx
          · exact hfree hne
          · rw [List.mem_singleton.mp hx]
            exact isOffset_toNat _
    · exact ⟨hnil, candidate_indexes round hfree⟩
  | checkAsked round free element =>
    have hrest := rest_of_indexes [(element : Int)] hk
    have hfree := free_of_indexes [(element : Int)] hk
    dsimp only
    split_ifs
    · exact ⟨hnil, hrest⟩
    · exact ⟨hnil, hk⟩
    · refine ⟨hnil, fun x hx => ?_⟩
      simp only [Point.indexes] at hx
      split_ifs at hx with hne
      · cases hx
      · rw [List.mem_singleton.mp hx]
        exact hfree hne
  | reserveAsked round free element =>
    have hrest := rest_of_indexes [(element : Int)] hk
    have hfree := free_of_indexes [(element : Int)] hk
    dsimp only
    split_ifs
    · exact ⟨hnil, hrest⟩
    · exact ⟨hnil, candidate_indexes round hfree⟩
  | grabNext round =>
    dsimp only
    split
    · next freeu64 mac hgrab =>
      obtain ⟨hlt, hindex⟩ := hs.sound.free_index (grab_ok hs.sound.pool hgrab).1
      rw [hindex]
      exact ⟨hnil, List.forall_mem_singleton.mpr (isOffset_natCast hlt)⟩
    · exact ⟨hnil, hnil⟩
  | sleepBusy round free => exact ⟨hk, List.forall_mem_singleton.mpr (isOffset_toNat 0)⟩
  | unlockSeen addr index reply =>
    refine ⟨hnil, ?_⟩
    match reply with
    | none => exact hnil
    | some true =>
      exact acknowledge_indexes k networkIP s.handler addr (List.forall_mem_singleton.mp hk)
    | some false => exact hnil
  | _ =>
    dsimp only
    repeat' split
    all_goals first
      | exact ⟨hnil, hnil⟩
      | exact ⟨hnil, hk⟩
      | exact ⟨hk, hnil⟩
      | exact ⟨hk, hk⟩

theorem next_coherent (networkIP : String) (s : Shared) (k : Worker)
    (hk : k.point.Coherent s.handler.start) :
    (k.next networkIP s).2.Coherent s.handler.start := by
  have hcandidate : ∀ round free,
      (Worker.candidate round free).Coherent s.handler.start := fun round free =>
    Worker.candidate_cases (P := Point.Coherent s.handler.start) (fun _ => trivial)
      fun _ => trivial
  have hack : ∀ addr index, ipAdd s.handler.start index = addr →
      (k.acknowledge s.handler networkIP addr index).Coherent s.handler.start :=
    fun addr index haddr => Worker.acknowledge_cases (P := Point.Coherent s.handler.start) trivial
      fun reply htype hyi => ⟨haddr, htype, hyi⟩
  unfold Worker.next
  generalize k.point = point at hk
  cases point with
  | unlockGate found =>
    cases found with
    | true => trivial
    | false =>
      exact Worker.dispatch_cases (P := Point.Coherent s.handler.start) (fun _ => trivial)
        (fun _ => trivial) (fun addr position _ hpos => hack _ _ (ipAdd_of_ipRange hpos))
        (fun _ _ => trivial) fun _ _ => trivial
  | getCached =>
    dsimp only
    split
    · exact fun _ => rfl
    · trivial
  | checkCached x =>
    dsimp only
    split_ifs
    · trivial
    · trivial
    · exact fun _ => rfl
  | reserveCached x =>
    dsimp only
    split_ifs
    · trivial
    · exact fun _ => rfl
  | countFree round firstTry free =>
    dsimp only
    split_ifs
    · trivial
    split
    · split
      · trivial
      · exact hk
    · exact hcandidate round free
  | checkAsked round free element =>
    dsimp only
    split_ifs
    · trivial
    · exact hk
    · exact hk
  | reserveAsked round free element =>
    dsimp only
    split_ifs
    · trivial
    · exact hcandidate round free
  | sleepBusy round free =>
    intro hround
    cases hround
  | getRequested addr =>
    dsimp only
    split
    · trivial
    · split_ifs with haddr
      · exact haddr
      · trivial
  | unlockSeen addr index reply =>
    match reply with
    | none => trivial
    | some true => exact hack addr index hk
    | some false => trivial
  | setMac addr index reply => exact ⟨hk.2.1, by rw [hk.1]; exact hk.2.2⟩
  | _ =>
    dsimp only
    repeat' split
    all_goals trivial

/-- After the step, an index that the handling goes on with is the client's: it was so before, or
the access has just tested or granted it. -/
theorem next_held (hs : s.handler.Sound) (hk : k.point.Coherent s.handler.start)
    (hmac : k.mac ≠ FreeMac) (hdyn : s.handler.ipAssigned.lookup k.mac = none)
    (hown : ∀ x, k.point.held = some x →
      s.handler.available.mac.lookup (safeIntToUint64 x) = some k.mac)
    (hacc : s.access id k (k.next networkIP s).1 = some s') {x : Int}
    (hx : (k.next networkIP s).2.held = some x) :
    s'.handler.available.mac.lookup (safeIntToUint64 x) = some k.mac := by
  have hcandidate : ∀ round free, (round = 0 → free = -1) →
      (Worker.candidate round free).held = none := by
    intro round free hround
    refine Worker.candidate_cases (P := fun c => c.held = none) (fun _ => rfl) fun hne => ?_
    cases round with
    | zero => exact absurd (hround rfl) hne
    | succ round => rfl
  have hack : ∀ addr index, (k.acknowledge s.handler networkIP addr index).held = some x →
      index = x := by
    intro addr index
    exact Worker.acknowledge_cases (P := fun c => c.held = some x → index = x) nofun
      fun _ _ _ heq => Option.some.inj heq
  have hkept : ∀ a, s.access id k a = some s' → k.point.held = some x →
      s'.handler.available.mac.lookup (safeIntToUint64 x) = some k.mac :=
    fun a ha hold => Shared.access_owner hs.pool ha (hown x hold)
  unfold Worker.next at hacc hx
  generalize k.point = point at hk hown hacc hx hkept
  cases point with
  | unlockGate found =>
    cases found with
    | true => cases hx
    | false =>
      refine absurd hx (Worker.dispatch_cases (P := fun c => c.held ≠ some x) (fun _ => nofun)
        (fun _ => nofun) (fun addr position hstatic _ => ?_) (fun _ _ => nofun) fun _ _ => nofun)
      cases hdyn.symm.trans hstatic
  | checkCached y =>
    dsimp only at hacc hx
    split_ifs at hacc hx with howner hfree
    · cases hx
      cases hacc
      exact hs.lookup_of_ownerOf hmac howner
    · cases hx
    · cases hx
  | reserveCached y =>
    dsimp only at hacc hx
    split_ifs at hx with hres
    · cases hx
      exact Shared.lookup_of_reserves hres hacc
    · cases hx
  | countFree round firstTry free =>
    dsimp only at hx
    split_ifs at hx
    · cases hx
    split at hx
    · split at hx
      · cases hx
      · cases hx
    · rw [hcandidate round free hk] at hx
      cases hx
  | checkAsked round free element =>
    dsimp only at hacc hx
    split_ifs at hacc hx with howner hfree
    · cases hacc
      cases round with
      | zero =>
        cases hx
        exact hs.lookup_of_ownerOf hmac howner
      | succ round => cases hx
    · cases hx
    · cases hx
  | reserveAsked round free element =>
    dsimp only at hacc hx
    split_ifs at hx with hres
    · cases round with
      | zero =>
        cases hx
        rw [safeIntToUint64_natCast]
        exact Shared.lookup_of_reserves hres hacc
      | succ round => cases hx
    · rw [hcandidate round free hk] at hx
      cases hx
  | grabNext round =>
    dsimp only at hacc hx
    rcases hgrab : s.handler.available.getFreeIPIndex (k.env.choice round) k.mac with
      ⟨dp, i, m, _ | error⟩
    · rw [hgrab] at hacc hx
      cases round with
      | zero =>
        obtain ⟨hfree, rfl⟩ := grab_ok hs.pool hgrab
        cases hx
        cases hacc
        rw [(hs.free_index hfree).2, safeIntToUint64_natCast]
        show (s.handler.available.getFreeIPIndex (k.env.choice 0) k.mac).1.mac.lookup i = _
        rw [hgrab]
        exact Finmap.lookup_insert _
      | succ round => cases hx
    · rw [hgrab] at hx
      cases hx
  | lockCandidate round free =>
    cases round with
    | zero => exact hkept _ hacc hx
    | succ round => cases hx
  | setXid round free =>
    dsimp only at hacc hx
    split_ifs at hx
    · cases hx
    · cases round with
      | zero => exact hkept _ hacc hx
      | succ round => cases hx
  | lockOffer round free =>
    cases round with
    | zero => exact hkept _ hacc hx
    | succ round => cases hx
  | setSeen addr index reply =>
    cases reply with
    | true => exact hkept _ hacc hx
    | false => cases hx
  | checkOwner addr index =>
    dsimp only at hacc hx
    cases hacc
    by_cases howner : s.handler.ownerOf index = k.mac
    · simp only [howner, decide_true, Point.held] at hx
      cases hx
      exact hs.lookup_of_ownerOf hmac howner
    · simp [howner, Point.held] at hx
  | unlockSeen addr index reply =>
    match reply with
    | none => cases hx
    | some true => exact hkept _ hacc (congrArg some (hack addr index hx))
    | some false => cases hx
  | setIp addr index reply => exact hkept _ hacc hx
  | setMac addr index reply => exact hkept _ hacc hx
  | lockLease index reply => exact hkept _ hacc hx
  | _ =>
    dsimp only at hx
    repeat' split at hx
    all_goals cases hx

/-- Only the worker at `lockLease` starts a lease. -/
theorem point_of_lease {index : Int} {reply : Reply}
    (hlease : (k.next networkIP s).1 = .lease index reply) : k.point = .lockLease index reply := by
  unfold Worker.next at hlease
  cases hp : k.point with
  | lockLease index' reply' =>
    rw [hp] at hlease
    cases hlease
    rfl
  | _ =>
    simp only [hp] at hlease
    repeat' split at hlease
    all_goals cases hlease

end Points

/-! ## Leases -/

/-- A lease of `m` on `a` is in force. -/
def Shared.InForce (s : Shared) (m : String) (a : IPv4) : Prop :=
  ∃ acked ∈ lastAck m a s.log, s.now - acked < s.handler.leaseDuration

instance (s : Shared) (m : String) (a : IPv4) : Decidable (s.InForce m a) :=
  Option.decidableExistsMem _

/-- A client whose tests of the pool mean something: not the MAC that stands for free indexes,
and without a static assignment. -/
def Dynamic (h : DHCPHandler) (m : String) : Prop :=
  m ≠ FreeMac ∧ h.ipAssigned.lookup m = none

/-- The owner of every address with a lease in force is the client of the lease. -/
def LeasesOwned (s : Shared) : Prop :=
  ∀ m a, Dynamic s.handler m → s.InForce m a →
    ∃ i : ℕ, ipAdd s.handler.start i = a ∧ s.handler.available.mac.lookup i = some m

structure LeasesKept (cfg : ScopeConfig) (s : Shared) : Prop where
  regular : s.Regular cfg
  leases : LeasesOwned s

/-- The variables of a worker are in order, and what it holds is its client's. -/
structure Tracks (s : Shared) (k : Worker) : Prop where
  offsets : ∀ x ∈ k.point.indexes, IsOffset x
  coherent : k.point.Coherent s.handler.start
  owned : Dynamic s.handler k.mac → ∀ x, k.point.held = some x →
    s.handler.available.mac.lookup (safeIntToUint64 x) = some k.mac

/-- The turn is a sleeping free that fires on an index which a worker is handling for its client,
or on an address with a lease in force. -/
def Serving.Disturbs (c : Serving) : Serving.Turn → Prop
  | .outside (.fire j) => ∃ task ∈ c.shared.handler.tasks[j]?,
      (∃ k ∈ c.locals, k.point.held.map safeIntToUint64 = some (safeIntToUint64 task.index)) ∨
      ∃ m ∈ c.shared.handler.available.mac.lookup (safeIntToUint64 task.index),
        c.shared.InForce m (ipAdd c.shared.handler.start (safeIntToUint64 task.index))
  | _ => False

instance (c : Serving) (e : Serving.Turn) : Decidable (c.Disturbs e) :=
  match e with
  | .outside (.fire _) => Option.decidableExistsMem _
  | .outside (.tick _) => inferInstanceAs (Decidable False)
  | .outside .purge => inferInstanceAs (Decidable False)
  | .outside .purgeGate => inferInstanceAs (Decidable False)
  | .outside (.delete _) => inferInstanceAs (Decidable False)
  | .run _ => inferInstanceAs (Decidable False)
  | .start _ => inferInstanceAs (Decidable False)

section Access
variable {networkIP : String} {id : ℕ} {s s' : Shared} {k k' : Worker} {cfg : ScopeConfig}

theorem dynamic_of_settings {h h' : DHCPHandler} (hset : h'.settings = h.settings) {m : String}
    (hm : Dynamic h' m) : Dynamic h m :=
  ⟨hm.1, by rw [← DHCPHandler.ipAssigned_of_settings hset]; exact hm.2⟩

theorem access_lastAck {a : Access} (ha : ∀ index reply, a ≠ .lease index reply)
    (hacc : s.access id k a = some s') {m : String} {addr : IPv4} {t : Int}
    (hlast : lastAck m addr s'.log = some t) : lastAck m addr s.log = some t := by
  cases a with
  | acquire =>
    obtain ⟨-, rfl⟩ := Shared.access_acquire hacc
    exact hlast
  | pass =>
    cases hacc
    refine lastAck_of_cons (fun hack => ?_) hlast
    cases hack
  | lease index reply => exact absurd rfl (ha index reply)
  | stop => cases hacc
  | _ =>
    cases hacc
    exact hlast

/-- A lease in force after the access was in force before, or the access has just started it. -/
theorem inForce_access (hacc : s.access id k (k.next networkIP s).1 = some s') {m : String}
    {addr : IPv4} (hforce : s'.InForce m addr) :
    s.InForce m addr ∨ ∃ index reply, k.point = .lockLease index reply ∧ k.mac = m ∧
      ({ k.answer with d := some reply } : Answer).acked = some addr := by
  obtain ⟨t, hlast, htime⟩ := hforce
  rw [Shared.access_now hacc,
    DHCPHandler.leaseDuration_of_settings (Shared.access_settings hacc)] at htime
  by_cases hlease : ∃ index reply, (k.next networkIP s).1 = .lease index reply
  · obtain ⟨index, reply, hlease⟩ := hlease
    have hpoint := point_of_lease hlease
    rw [hlease] at hacc
    cases hacc
    by_cases hnew : k.mac = m ∧ ({ k.answer with d := some reply } : Answer).acked = some addr
    · exact .inr ⟨index, reply, hpoint, hnew⟩
    · refine .inl ⟨t, ?_, htime⟩
      by_cases hm : k.mac = m
      · exact lastAck_of_cons (fun hack => hnew ⟨hm, hack⟩) hlast
      · exact (lastAck_cons_ne hm).symm.trans hlast
  · refine .inl ⟨t, access_lastAck (fun index reply heq => hlease ⟨index, reply, heq⟩) hacc hlast,
      htime⟩

theorem leases_access (hs : LeasesKept cfg s) (hk : Tracks s k)
    (hacc : s.access id k (k.next networkIP s).1 = some s') : LeasesOwned s' := by
  intro m a hdyn hforce
  have hset := Shared.access_settings hacc
  have hdyn' := dynamic_of_settings hset hdyn
  have howner := fun {i : ℕ} {o : String} (hi : s.handler.available.mac.lookup i = some o) =>
    Shared.access_owner hs.regular.sound.pool hacc hi
  rw [DHCPHandler.start_of_settings hset]
  obtain hold | ⟨index, reply, hpoint, rfl, hack⟩ := inForce_access hacc hforce
  · obtain ⟨i, haddr, hi⟩ := hs.leases m a hdyn' hold
    exact ⟨i, haddr, howner hi⟩
  · -- the lease that this access starts: its index was tested in the critical section
    have hcoh := hk.coherent
    have hoff := hk.offsets index (by rw [hpoint]; exact List.mem_singleton.mpr rfl)
    have hi := hk.owned hdyn' index (by rw [hpoint]; rfl)
    rw [hpoint] at hcoh
    refine ⟨safeIntToUint64 index, ?_, howner hi⟩
    have haddr : reply.yiaddr = some a := by
      simpa [Answer.acked, Answer.addressOf, hcoh.1] using hack
    rw [hoff.safeIntToUint64_eq]
    exact Option.some.inj (hcoh.2.symm.trans haddr)

theorem tracks_own (hs : s.Regular cfg) (hk : Tracks s k)
    (hacc : s.access id k (k.next networkIP s).1 = some s') :
    Tracks s' (k.goto (k.next networkIP s).2) := by
  have hset := Shared.access_settings hacc
  refine ⟨(next_indexes hs hk.offsets).2, ?_, fun hdyn x hx => ?_⟩
  · rw [DHCPHandler.start_of_settings hset]
    exact next_coherent networkIP s k hk.coherent
  · have hdyn' := dynamic_of_settings hset hdyn
    exact next_held hs.sound hk.coherent hdyn'.1 hdyn'.2 (hk.owned hdyn') hacc hx

theorem tracks_other {u : Worker} (hs : s.Regular cfg) (hu : Tracks s u)
    (hacc : s.access id k (k.next networkIP s).1 = some s') : Tracks s' u := by
  have hset := Shared.access_settings hacc
  refine ⟨hu.offsets, ?_, fun hdyn x hx => ?_⟩
  · rw [DHCPHandler.start_of_settings hset]
    exact hu.coherent
  · exact Shared.access_owner hs.sound.pool hacc
      (hu.owned (dynamic_of_settings hset hdyn) x hx)

theorem regular_access (hs : s.Regular cfg) (hk : Tracks s k)
    (hacc : s.access id k (k.next networkIP s).1 = some s') : s'.Regular cfg :=
  ⟨Shared.access_sound hs.sound hacc,
    Shared.access_offsets hs.offsets (next_indexes hs hk.offsets).1 hacc,
    (Shared.access_settings hacc).trans hs.settings⟩

end Access

/-! ## The surroundings -/

section Outside
variable {s s' : Shared} {e : Outside} {cfg : ScopeConfig}

theorem outside_fire {j : ℕ} (h : s.outside (.fire j) = some s') :
    ∃ task, s.handler.tasks[j]? = some task ∧ s' = s.setHandler (s.handler.fire s.now j task) := by
  simp only [Shared.outside] at h
  split at h
  · next task htask =>
    split_ifs at h
    cases h
    exact ⟨task, htask, rfl⟩
  · cases h

theorem outside_delete {j : ℕ} (h : s.outside (.delete j) = some s') :
    ∃ mac, s' = { s.setHandler (s.handler.evict s.now mac) with
      deletes := s.deletes.eraseIdx j } := by
  simp only [Shared.outside] at h
  split at h
  · next mac _ =>
    cases h
    exact ⟨mac, rfl⟩
  · cases h

theorem outside_settings (h : s.outside e = some s') :
    s'.handler.settings = s.handler.settings := by
  cases e with
  | tick d =>
    cases h
    rfl
  | purge =>
    cases h
    show (s.handler.purge s.now).settings = _
    rw [DHCPHandler.purge_eq]
    rfl
  | purgeGate =>
    cases h
    rfl
  | fire j =>
    obtain ⟨task, -, rfl⟩ := outside_fire h
    rfl
  | delete j =>
    obtain ⟨mac, rfl⟩ := outside_delete h
    exact s.handler.evict_settings s.now mac

theorem regular_outside (hs : s.Regular cfg) (h : s.outside e = some s') : s'.Regular cfg := by
  have hset := (outside_settings h).trans hs.settings
  cases e with
  | tick d =>
    cases h
    exact ⟨hs.sound, hs.offsets, hset⟩
  | purge =>
    cases h
    exact ⟨hs.sound.purge s.now, hs.offsets.purge s.now, hset⟩
  | purgeGate =>
    cases h
    exact ⟨hs.sound, hs.offsets, hset⟩
  | fire j =>
    obtain ⟨task, -, rfl⟩ := outside_fire h
    exact ⟨hs.sound.fire s.now j task, hs.offsets.fire s.now j task, hset⟩
  | delete j =>
    obtain ⟨mac, rfl⟩ := outside_delete h
    refine ⟨?_, hs.offsets.evict s.now mac, hset⟩
    show (s.handler.evict s.now mac).Sound
    rw [DHCPHandler.evict_eq]
    exact ⟨hs.sound.pool, hs.sound.range, hs.sound.fits⟩

/-- What the surroundings do to the owners: only a sleeping free removes one. -/
theorem outside_owner (h : s.outside e = some s') {i : ℕ}
    (hfire : ∀ j task, e = .fire j → s.handler.tasks[j]? = some task →
      i ≠ safeIntToUint64 task.index) :
    s'.handler.available.mac.lookup i = s.handler.available.mac.lookup i := by
  cases e with
  | tick d =>
    cases h
    rfl
  | purge =>
    cases h
    show (s.handler.purge s.now).available.mac.lookup i = _
    rw [DHCPHandler.purge_eq]
  | purgeGate =>
    cases h
    rfl
  | fire j =>
    obtain ⟨task, htask, rfl⟩ := outside_fire h
    exact DHCPHandler.fire_lookup_ne (hfire j task rfl htask)
  | delete j =>
    obtain ⟨mac, rfl⟩ := outside_delete h
    show (s.handler.evict s.now mac).available.mac.lookup i = _
    rw [DHCPHandler.evict_available]

theorem inForce_outside (h : s.outside e = some s') {m : String} {a : IPv4}
    (hforce : s'.InForce m a) : s.InForce m a := by
  obtain ⟨t, hlast, htime⟩ := hforce
  rw [DHCPHandler.leaseDuration_of_settings (outside_settings h)] at htime
  cases e with
  | tick d =>
    cases h
    have htime' : s.now + d - t < s.handler.leaseDuration := htime
    exact ⟨t, hlast, by omega⟩
  | purge =>
    cases h
    exact ⟨t, hlast, htime⟩
  | purgeGate =>
    cases h
    exact ⟨t, hlast, htime⟩
  | fire j =>
    obtain ⟨task, -, rfl⟩ := outside_fire h
    exact ⟨t, hlast, htime⟩
  | delete j =>
    obtain ⟨mac, rfl⟩ := outside_delete h
    exact ⟨t, hlast, htime⟩

end Outside

/-! ## Every interleaving -/

theorem leases_kept (networkIP : String) (cfg : ScopeConfig) :
    Threads.Kept (Worker.step networkIP) Shared.outside
      (fun c e => Serving.Starts e ∧ ¬ Serving.Disturbs c e) (fun _ => LeasesKept cfg)
      (fun _ => Tracks) where
  own c i k s' k' hc _ hi hstep := by
    obtain ⟨hacc, rfl⟩ := Worker.step_eq_some hstep
    have hk := hc.each i k hi
    exact ⟨⟨regular_access hc.shared.regular hk hacc, leases_access hc.shared hk hacc⟩,
      tracks_own hc.shared.regular hk hacc⟩
  other c i k s' k' j u hc _ hi hstep hj _ := by
    obtain ⟨hacc, rfl⟩ := Worker.step_eq_some hstep
    exact tracks_other hc.shared.regular (hc.each j u hj) hacc
  start c k hc hok := by
    have hpoint : k.point = .lockGate := hok.1
    refine ⟨hc.shared, ?_, ?_, ?_⟩
    · rw [hpoint]
      exact List.forall_mem_nil _
    · rw [hpoint]
      trivial
    · intro _ x hx
      rw [hpoint] at hx
      cases hx
  outside c e s' hc hok hout := by
    have hset := outside_settings hout
    have hstart := DHCPHandler.start_of_settings hset
    have hs := hc.shared
    refine ⟨⟨regular_outside hs.regular hout, fun m a hdyn hforce => ?_⟩, fun j u hu => ?_⟩
    · have hold := inForce_outside hout hforce
      obtain ⟨i, rfl, hi⟩ := hs.leases m a (dynamic_of_settings hset hdyn) hold
      refine ⟨i, by rw [hstart], ?_⟩
      rw [outside_owner hout, hi]
      rintro j task rfl htask rfl
      exact hok.2 ⟨task, htask, .inr ⟨m, hi, hold⟩⟩
    · have hlocal := hc.each j u hu
      refine ⟨hlocal.offsets, by rw [hstart]; exact hlocal.coherent, fun hdyn x hx => ?_⟩
      rw [outside_owner hout]
      · exact hlocal.owned (dynamic_of_settings hset hdyn) x hx
      · rintro j' task rfl htask hindex
        refine hok.2 ⟨task, htask, .inl ⟨u, List.mem_of_getElem? hu, ?_⟩⟩
        rw [hx, ← hindex]
        rfl

theorem Serving.RunsTo.leases {networkIP : String} {cfg : ScopeConfig} {now : Int} {c : Serving}
    (hrun : Serving.RunsTo networkIP (fun c e => ¬ c.Disturbs e) cfg now c) :
    Threads.Good (fun _ => LeasesKept cfg) (fun _ => Tracks) c := by
  refine Threads.Good.invariant (leases_kept networkIP cfg) ⟨⟨⟨readConfig_sound cfg,
    readConfig_indexes cfg IsOffset, rfl⟩, ?_⟩, ?_⟩ hrun
  · rintro m a - ⟨t, hlast, -⟩
    cases hlast
  · intro i k hi
    cases hi

/-- However the accesses of the workers interleave: as long as no sleeping free fires on an index
that is being handled or leased, one address is leased to one client only, among the clients that
have no static assignment and are not `00:00:00:00:00:00`. -/
theorem interleaved_no_double_lease {networkIP : String} {cfg : ScopeConfig} {now : Int}
    {c : Serving} (hrun : Serving.RunsTo networkIP (fun c e => ¬ c.Disturbs e) cfg now c)
    {m m' : String} (hm : Dynamic (readConfig cfg) m) (hm' : Dynamic (readConfig cfg) m')
    {a : IPv4} (hforce : c.shared.InForce m a) (hforce' : c.shared.InForce m' a) : m = m' := by
  obtain ⟨hreg, howned⟩ := hrun.leases.shared
  have hset := hreg.settings.symm
  obtain ⟨i, hi, hown⟩ := howned m a (dynamic_of_settings hset hm) hforce
  obtain ⟨j, hj, hown'⟩ := howned m' a (dynamic_of_settings hset hm') hforce'
  have hlt := hreg.sound.pool.owned_lt hown
  have hlt' := hreg.sound.pool.owned_lt hown'
  have hfits := hreg.sound.fits
  have hij : i = j := ipAdd_inj _ (by omega) (by omega) (hi.trans hj.symm)
  rw [hij] at hown
  exact Option.some.inj (hown.symm.trans hown')

/-- Two clients discover and request at the same time, access by access. -/
theorem interleaved_no_double_lease_sample : ∃ c, Serving.RunsTo "10.0.0.0"
      (fun c e => ¬ c.Disturbs e) (Sample.scope [] []) 0 c ∧
    c.shared.InForce "02:00:00:00:00:01" 0x0a00000a#32 ∧
    c.shared.InForce "02:00:00:00:00:02" 0x0a00000b#32 ∧
    ∀ m, Dynamic (readConfig (Sample.scope [] [])) m → c.shared.InForce m 0x0a00000a#32 →
      m = "02:00:00:00:00:01" := by
  let first := Sample.worker [2, 0, 0, 0, 0, 1]
  let other := Sample.worker [2, 0, 0, 0, 0, 2]
  have hall : ∀ e ∈ (.start (first 1 none .discover) :: .start (other 2 none .discover) ::
      Sample.runs [0, 0, 0, 0, 1, 1, 1, 1, 0, 1, 0, 1, 0, 1, 0, 1, 0, 1, 0, 1, 0, 1] ++
      .start (first 1 (some 0x0a00000a#32) .request) ::
      .start (other 2 (some 0x0a00000b#32) .request) ::
      Sample.runs [2, 2, 2, 2, 3, 3, 3, 3, 2, 3, 2, 2, 2, 2, 2, 3, 3, 3, 3, 3, 2, 3, 2, 3, 2, 3] :
      List Serving.Turn), Serving.Starts e := by
    simp [Serving.Starts, Sample.runs, first, other, Sample.worker, Worker.call]
  obtain ⟨c, hrun, hp⟩ := Sample.exists_serving (Sample.scope [] []) (fun c e => ¬ c.Disturbs e) _
    (fun c => decide (c.shared.InForce "02:00:00:00:00:01" 0x0a00000a#32) &&
      decide (c.shared.InForce "02:00:00:00:00:02" 0x0a00000b#32)) hall (by decide +kernel)
  simp only [Bool.and_eq_true, decide_eq_true_eq] at hp
  refine ⟨c, hrun, hp.1, hp.2, fun m hm hforce => ?_⟩
  exact interleaved_no_double_lease hrun hm ⟨by decide, by decide +kernel⟩ hforce hp.1

/-- Two workers that hold the same index at the same time serve the same client, among the clients
that have no static assignment and are not `00:00:00:00:00:00`. A worker with a DISCOVER counts up
to its first ping conflict (`Point.held`). -/
theorem interleaved_candidates_differ {networkIP : String} {cfg : ScopeConfig} {now : Int}
    {c : Serving} (hrun : Serving.RunsTo networkIP (fun c e => ¬ c.Disturbs e) cfg now c)
    {k u : Worker} (hk : k ∈ c.locals) (hu : u ∈ c.locals)
    (hkdyn : Dynamic (readConfig cfg) k.mac) (hudyn : Dynamic (readConfig cfg) u.mac) {x y : Int}
    (hx : k.point.held = some x) (hy : u.point.held = some y)
    (hsame : safeIntToUint64 x = safeIntToUint64 y) : k.mac = u.mac := by
  have hgood := hrun.leases
  have hset := hgood.shared.regular.settings.symm
  obtain ⟨i, hi⟩ := List.getElem?_of_mem hk
  obtain ⟨j, hj⟩ := List.getElem?_of_mem hu
  have hown := (hgood.each i k hi).owned (dynamic_of_settings hset hkdyn) x hx
  have hown' := (hgood.each j u hj).owned (dynamic_of_settings hset hudyn) y hy
  rw [hsame] at hown
  exact Option.some.inj (hown.symm.trans hown')

/-- A REQUEST and an INFORM of one client are acknowledged at the same time. -/
theorem interleaved_candidates_differ_sample : ∃ c, Serving.RunsTo "10.0.0.0"
      (fun c e => ¬ c.Disturbs e) (Sample.scope [] []) 0 c ∧
    ∃ k ∈ c.locals, ∃ u ∈ c.locals, k.t = .request ∧ u.t = .inform ∧ k.point.held = some 0 ∧
      u.point.held = some 0 ∧ k.mac = u.mac := by
  let first := Sample.worker [2, 0, 0, 0, 0, 1] 1
  have hall : ∀ e ∈ (.start (first none .discover) ::
      Sample.runs [0, 0, 0, 0, 0, 0, 0, 0, 0, 0, 0] ++
      .start (first (some 0x0a00000a#32) .request) ::
      .start (first (some 0x0a00000a#32) .inform) ::
      Sample.runs [1, 1, 1, 1, 2, 2, 2, 2, 1, 2, 2, 2, 2, 2, 2, 1, 1, 1, 1, 1] :
      List Serving.Turn), Serving.Starts e := by
    simp [Serving.Starts, Sample.runs, first, Sample.worker, Worker.call]
  let acking := fun (t : MessageType) (k : Worker) => decide (k.t = t ∧ k.point.held = some 0 ∧
    k.mac = "02:00:00:00:00:01")
  obtain ⟨c, hrun, hp⟩ := Sample.exists_serving (Sample.scope [] []) (fun c e => ¬ c.Disturbs e) _
    (fun c => c.locals.any (acking .request) && c.locals.any (acking .inform)) hall
    (by decide +kernel)
  simp only [Bool.and_eq_true, List.any_eq_true, acking, decide_eq_true_eq] at hp
  obtain ⟨⟨k, hkmem, hk, hkheld, hkmac⟩, u, humem, hu, huheld, humac⟩ := hp
  have hdyn : Dynamic (readConfig (Sample.scope [] [])) "02:00:00:00:00:01" :=
    ⟨by decide, by decide +kernel⟩
  exact ⟨c, hrun, k, hkmem, u, humem, hk, hu, hkheld, huheld,
    interleaved_candidates_differ hrun hkmem humem (by rw [hkmac]; exact hdyn)
      (by rw [humac]; exact hdyn) hkheld huheld rfl⟩

end StandaloneDHCP
