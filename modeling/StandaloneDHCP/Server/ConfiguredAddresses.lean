import StandaloneDHCP.Server.HandlerRun

/-! Addresses that the configuration takes out of the pool: the static ones of `ip_assigned`
and the excluded ones of `ip_reserved`. Both are protected by an ordinary pool reservation made
at start and by nothing else. A static index therefore stays with its client until a sleeping
`FreeIPIndex` of that index fires, which the first lease of the client leads to. A reserved
index belongs to the sentinel `FakeMac` and is safe from everybody but a client that sends the
sentinel as its own hardware address. -/
namespace StandaloneDHCP
open Lib
set_option autoImplicit false

theorem Source.owner_eq {env : Env} {now : Int} {p : Packet} {t : MessageType} {h : DHCPHandler}
    {index : Int} (hsrc : Source env now p t h index) (hs : h.Sound) (hsilent : env.Silent)
    {o : String} (ho : h.available.mac.lookup (safeIntToUint64 index) = some o) :
    o = p.clientMac := by
  have howner := hs.ownerOf_of_lookup ho
  cases hsrc with
  | cached _ _ hown => exact howner.symm.trans hown
  | asked i _ _ _ _ hown => exact howner.symm.trans hown
  | fresh i _ hfree =>
    rw [safeIntToUint64_natCast] at ho
    exact absurd hfree (hs.pool.notMem_free ho)
  | fallback _ hping => exact absurd hping hsilent.not_answered

/-! ## Static addresses -/

/-- The entries of `ip_assigned` are lower-case hardware addresses with addresses of the range;
no hardware address, address or reserved address is named twice. -/
structure StaticConfig (cfg : ScopeConfig) : Prop where
  text : ∀ e ∈ cfg.ipAssigned, ∃ bytes : Bytes, bytes.length = 6 ∧ e.1 = hexString bytes
  macs : (cfg.ipAssigned.map Prod.fst).Nodup
  addresses : (cfg.ipAssigned.map Prod.snd).Nodup
  inside : ∀ e ∈ cfg.ipAssigned,
    cfg.dhcpStart.toNat ≤ e.2.toNat ∧ e.2.toNat ≤ cfg.dhcpEnd.toNat
  unreserved : ∀ e ∈ cfg.ipAssigned, e.2 ∉ cfg.ipReserved

theorem StaticConfig.mac_eq {cfg : ScopeConfig} (hcfg : StaticConfig cfg) {m m' : String}
    {a : IPv4} (hm : (m, a) ∈ cfg.ipAssigned) (hm' : (m', a) ∈ cfg.ipAssigned) : m = m' :=
  congrArg Prod.fst (List.inj_on_of_nodup_map hcfg.addresses hm hm' rfl)

/-- The firing of a sleeping free whose index is the position of a static address. -/
def World.FreesStatic (cfg : ScopeConfig) (w : World) : Event → Prop
  | .fire k => ∃ task ∈ w.handler.tasks[k]?, ∃ e ∈ cfg.ipAssigned,
      (cfg.position e.2).toNat = safeIntToUint64 task.index
  | _ => False

instance (cfg : ScopeConfig) (w : World) (e : Event) : Decidable (w.FreesStatic cfg e) :=
  match e with
  | .fire _ => Option.decidableExistsMem _
  | .packet _ _ _ _ => inferInstanceAs (Decidable False)
  | .tick _ => inferInstanceAs (Decidable False)
  | .purge => inferInstanceAs (Decidable False)

/-- Static positions belong to their clients, and only they were ever answered with them. -/
structure StaticKept (cfg : ScopeConfig) (w : World) : Prop where
  owner : ∀ m a, (m, a) ∈ cfg.ipAssigned →
    w.handler.available.mac.lookup (cfg.position a).toNat = some m
  answers : ∀ r ∈ w.log, ∀ m a, (m, a) ∈ cfg.ipAssigned → r.Grants a → r.mac = m

theorem staticKept_init {cfg : ScopeConfig} (hcfg : StaticConfig cfg) (network : IPNet)
    (ipv4 : Option IPv4) (now : Int) : StaticKept cfg (World.init cfg network ipv4 now) := by
  refine ⟨fun m a hm => ?_, fun r hr => nomatch hr⟩
  have hin := hcfg.inside _ hm
  have hmem : ((cfg.position a).toNat, m) ∈ cfg.reservations :=
    List.mem_append_right _ (List.mem_map_of_mem hm)
  obtain ⟨-, hno⟩ | ⟨e, he, hidx, hown⟩ := readConfig_free cfg (cfg.position_lt_size hin.1 hin.2)
  · exact absurd rfl (hno _ hmem)
  · -- the entry that owns the index names the same address, so it is this one
    rcases List.mem_append.mp he with he | he
    · obtain ⟨b, hb, rfl⟩ := List.mem_map.mp he
      cases cfg.position_inj hidx
      exact absurd hb (hcfg.unreserved _ hm)
    · obtain ⟨⟨m', b⟩, hb, rfl⟩ := List.mem_map.mp he
      cases cfg.position_inj hidx
      cases hcfg.mac_eq hm hb
      exact hown

theorem staticKept_answer {cfg : ScopeConfig} {w : World} (hcfg : StaticConfig cfg)
    (hreg : w.Regular cfg) (hinv : StaticKept cfg w) {p : Packet} {t : MessageType} {env : Env}
    {h : DHCPHandler} {answer : Answer} (hsilent : env.Silent)
    (hh : Handled env w.now p t w.handler h answer) {m : String} {a : IPv4}
    (hm : (m, a) ∈ cfg.ipAssigned) (ha : answer.offered = some a ∨ answer.acked = some a) :
    p.clientMac = m := by
  obtain ⟨position, hstat, haddr⟩ | ⟨index, hsrc, haddr⟩ := hh.source ha
  · -- the client's own static address
    rw [hreg.ipAssigned] at hstat
    obtain ⟨b, hb, rfl⟩ := readConfig_assigned cfg hstat
    rw [hreg.start, cfg.ipAdd_position] at haddr
    subst haddr
    exact hcfg.mac_eq hb hm
  · have hindex := hreg.index_eq (hsrc.isOffset hreg.sound hreg.offsets) haddr
    have hown := hinv.owner m a hm
    rw [← safeIntToUint64_natCast (cfg.position a).toNat, ← hindex] at hown
    exact (hsrc.owner_eq hreg.sound hsilent hown).symm

theorem StaticKept.step {cfg : ScopeConfig} {w w' : World} {e : Event} (hcfg : StaticConfig cfg)
    (hreg : w.Regular cfg) (hinv : StaticKept cfg w) (hsilent : e.Silent)
    (hok : ¬ w.FreesStatic cfg e) (hst : World.Stepped w e w') : StaticKept cfg w' := by
  refine ⟨fun m a hm => ?_, fun r hr m a hm hgrant => ?_⟩
  · have hown := hinv.owner m a hm
    cases hst with
    | dropped => exact hown
    | handled p t env fuel g h answer _ _ hh => exact hh.moves.owner hreg.sound hown
    | tick => exact hown
    | purge =>
      show (w.handler.purge w.now).available.mac.lookup _ = _
      rw [DHCPHandler.purge_eq]
      exact hown
    | fire k task htask =>
      have hne : (cfg.position a).toNat ≠ safeIntToUint64 task.index :=
        fun heq => hok ⟨task, htask, (m, a), hm, heq⟩
      exact (DHCPHandler.fire_lookup_ne hne).trans hown
  · obtain hold | ⟨p, t, env, fuel, h, rfl, -, hh, hmac⟩ := hst.grants hr hgrant
    · exact hinv.answers r hold m a hm hgrant
    · rw [hmac]
      exact staticKept_answer hcfg hreg hinv hsilent hh hm hgrant

/-- While no sleeping free of a static position fires, a static address is offered and
acknowledged to its own client only. -/
theorem static_addresses_exclusive {cfg : ScopeConfig} {network : IPNet} {ipv4 : Option IPv4}
    {now : Int} {w : World} (hcfg : StaticConfig cfg)
    (hrun : World.RunsTo (fun w e => e.Silent ∧ ¬ w.FreesStatic cfg e) cfg network ipv4 now w)
    {r : Record} (hr : r ∈ w.log) {m : String} {a : IPv4} (hm : (m, a) ∈ cfg.ipAssigned)
    (hgrant : r.Grants a) : r.mac = m := by
  have hinv := World.RunsTo.invariant (StaticKept cfg) hrun
    (staticKept_init hcfg network ipv4 now)
    (fun w e w' hreg hinv hok hst => hinv.step hcfg hreg hok.1 hok.2 hst)
  exact hinv.2.answers r hr m a hm hgrant

/-- One static client, `02:…:01` with 10.0.0.10. -/
def staticSample : ScopeConfig := Sample.scope [] [("02:00:00:00:00:01", 0x0a00000a#32)]

theorem staticSample_config : StaticConfig staticSample where
  text := by
    intro e he
    cases List.mem_singleton.mp he
    exact ⟨[2, 0, 0, 0, 0, 1], rfl, by decide +kernel⟩
  macs := List.nodup_singleton _
  addresses := List.nodup_singleton _
  inside := by
    intro e he
    cases List.mem_singleton.mp he
    decide
  unreserved := fun _ _ => List.not_mem_nil

theorem static_addresses_exclusive_sample : ∃ w, World.RunsTo (fun w e => e.Silent ∧
      ¬ w.FreesStatic staticSample e) staticSample Sample.network none 0 w ∧
    ∃ r ∈ w.log, r.Grants 0x0a00000a#32 ∧ r.mac = "02:00:00:00:00:01" := by
  have hall : ∀ e ∈ [Sample.send [2, 0, 0, 0, 0, 1] 1 none .discover,
      Sample.send [2, 0, 0, 0, 0, 1] 1 (some 0x0a00000a#32) .request,
      Sample.send [2, 0, 0, 0, 0, 2] 2 (some 0x0a00000a#32) .discover], e.Silent := by
    simp [Event.Silent, Sample.send, Sample.silent_env]
  obtain ⟨w, hrun, hp⟩ := Sample.exists_runsTo staticSample
    (fun w e => ¬ w.FreesStatic staticSample e) _
    (fun w => w.log.any fun r => decide (r.Grants 0x0a00000a#32)) hall (by decide +kernel)
  obtain ⟨r, hr, hgrant⟩ := List.any_eq_true.mp hp
  have hgrant' := of_decide_eq_true hgrant
  exact ⟨w, hrun, r, hr, hgrant', static_addresses_exclusive staticSample_config hrun hr
    (List.mem_singleton.mpr rfl) hgrant'⟩

/-- The lease of the static client runs out, its entry is purged, and 30 seconds later the
static index is free for the next client that asks for it. -/
theorem static_address_offered_to_other : ¬ ∀ (cfg : ScopeConfig) (network : IPNet)
    (ipv4 : Option IPv4) (now : Int) (w : World), StaticConfig cfg →
    World.RunsTo (fun _ e => e.Silent) cfg network ipv4 now w →
    ∀ r ∈ w.log, ∀ m a, (m, a) ∈ cfg.ipAssigned → r.Grants a → r.mac = m := by
  intro hclaim
  have hall : ∀ e ∈ [Sample.send [2, 0, 0, 0, 0, 1] 1 none .discover,
      Sample.send [2, 0, 0, 0, 0, 1] 1 (some 0x0a00000a#32) .request,
      .tick 3620000000001, .purge, .tick 30000000000, .fire 0,
      Sample.send [2, 0, 0, 0, 0, 2] 2 (some 0x0a00000a#32) .discover], e.Silent := by
    simp [Event.Silent, Sample.send, Sample.silent_env]
  obtain ⟨w, hrun, hp⟩ := Sample.exists_run staticSample _
    (fun w => w.log.any fun r => decide (r.Grants 0x0a00000a#32) &&
      decide (r.mac = "02:00:00:00:00:02")) hall (by decide +kernel)
  obtain ⟨r, hr, hfound⟩ := List.any_eq_true.mp hp
  simp only [Bool.and_eq_true, decide_eq_true_eq] at hfound
  have hmac := hclaim staticSample Sample.network none 0 w staticSample_config hrun r hr _ _
    (List.mem_singleton.mpr rfl) hfound.1
  rw [hfound.2] at hmac
  exact absurd hmac (by decide)

/-! ## Reserved addresses -/

/-- What `GetMACIndex` returns for a reserved address for ever: the fake MAC inside the range,
the free MAC outside. -/
def ScopeConfig.sentinel (cfg : ScopeConfig) (a : IPv4) : String :=
  if (cfg.position a).toNat < cfg.size then FakeMac else FreeMac

/-- The packet asks for `a` in option 50 and has the sentinel of `a` as hardware address. -/
def Packet.AsksAs (p : Packet) (a : IPv4) (sentinel : String) : Prop :=
  (p.options optionRequestedIPAddress).bind beUint32 = some a ∧ p.clientMac = sentinel

/-- A search for an index reads such a request: the client has no index of its own in the cache
and the pool is not full. -/
def World.AsksReserved (cfg : ScopeConfig) (w : World) : Event → Prop
  | .packet p .discover _ _ => w.Admits p .discover ∧ w.handler.Searches w.now p ∧
      w.handler.CanAllot p ∧ ∃ a ∈ cfg.ipReserved, p.AsksAs a (cfg.sentinel a)
  | _ => False

instance (p : Packet) (a : IPv4) (sentinel : String) : Decidable (p.AsksAs a sentinel) :=
  inferInstanceAs (Decidable (_ ∧ _))

instance (cfg : ScopeConfig) (w : World) (e : Event) : Decidable (w.AsksReserved cfg e) :=
  match e with
  | .packet _ .discover _ _ =>
    -- over the list, not over all addresses
    @instDecidableAnd _ _ _ (@instDecidableAnd _ _ _
      (@instDecidableAnd _ _ _ (List.decidableBEx _ _)))
  | .packet _ .offer _ _ | .packet _ .request _ _ | .packet _ .decline _ _ | .packet _ .ack _ _
  | .packet _ .nak _ _ | .packet _ .release _ _ | .packet _ .inform _ _ | .tick _ | .purge
  | .fire _ => inferInstanceAs (Decidable False)

/-- Nobody has the index of `a` in the cache, and nothing is going to free it. -/
structure Untouchable (cfg : ScopeConfig) (a : IPv4) (h : DHCPHandler) : Prop where
  start : h.start = cfg.dhcpStart
  capacity : h.available.capacity = cfg.size
  dynamic : ∀ m, h.ipAssigned.lookup m = none
  owner : (cfg.position a).toNat < cfg.size →
    h.available.mac.lookup (cfg.position a).toNat = some FakeMac
  unused : h.Indexes (· ≠ (cfg.position a).toNat)

section Untouchable
variable {cfg : ScopeConfig} {a : IPv4} {h h' h₀ : DHCPHandler} {env : Env} {now : Int}
  {p : Packet} {t : MessageType} (hu : Untouchable cfg a h)
include hu

theorem Untouchable.ownerOf (hs : h.Sound) :
    h.ownerOf (cfg.position a).toNat = cfg.sentinel a := by
  unfold ScopeConfig.sentinel
  split
  · next hlt =>
    have hown := hu.owner hlt
    rw [← safeIntToUint64_natCast (cfg.position a).toNat] at hown
    exact hs.ownerOf_of_lookup hown
  · next hge =>
    rw [← hu.capacity] at hge
    simp [DHCPHandler.ownerOf, DHCPPool.getMACIndex, DHCPPool.indexInPool,
      safeIntToUint64_natCast, hge]

theorem Untouchable.notMem_free (hs : h.Sound) : (cfg.position a).toNat ∉ h.available.free := by
  intro hfree
  have hlt := hs.pool.free_lt hfree
  rw [hu.capacity] at hlt
  exact hs.pool.notMem_free (hu.owner hlt) hfree

theorem Untouchable.of_requested (hs : h.Sound) (hask : ¬ p.AsksAs a (cfg.sentinel a)) {i : ℕ}
    (hreq : requestedIndex h p = some i) (hown : h.ownerOf i = p.clientMac) :
    (i : Int) ≠ (cfg.position a).toNat := by
  intro heq
  obtain ⟨b, hb, hi⟩ := Option.map_eq_some_iff.mp hreq
  have hpos : (cfg.position b).toNat = (cfg.position a).toNat := by
    rw [hu.start] at hi
    have : (cfg.position b).toNat = i := hi
    omega
  cases cfg.position_inj hpos
  rw [heq, hu.ownerOf hs] at hown
  exact hask ⟨hb, hown.symm⟩

theorem Untouchable.move (hm : Move env now p t h₀ h h') (hs : h.Sound) (hsilent : env.Silent)
    (hask : t = .discover → h₀.Searches now p → h₀.CanAllot p →
      ¬ p.AsksAs a (cfg.sentinel a)) : Untouchable cfg a h' := by
  have hadm : Admissible env now p t (· ≠ ((cfg.position a).toNat : Int)) h₀ h := by
    refine ⟨fun htype hfirst i hreq hown => ?_, ?_, ?_, ?_⟩
    · exact hu.of_requested hs (hask htype hfirst.searches hfirst.canAllot) hreq hown
    · intro i hfree heq
      have hi : i = (cfg.position a).toNat := by omega
      exact hu.notMem_free hs (hi ▸ hfree)
    · exact fun hping => absurd hping hsilent.not_answered
    · intro position hstat
      cases (hu.dynamic _).symm.trans hstat
  refine ⟨?_, ?_, ?_, fun hlt => hm.owner hs (hu.owner hlt), hm.indexes hadm hu.unused⟩
  · rw [DHCPHandler.start_of_settings hm.settings]
    exact hu.start
  · rw [hs.capacity_eq (hm.sound hs) (DHCPHandler.leaseRange_of_settings hm.settings)]
    exact hu.capacity
  · rw [DHCPHandler.ipAssigned_of_settings hm.settings]
    exact hu.dynamic

theorem Untouchable.purge (now : Int) : Untouchable cfg a (h.purge now) := by
  have hunused := hu.unused.purge now
  rw [DHCPHandler.purge_eq] at hunused ⊢
  exact ⟨hu.start, hu.capacity, hu.dynamic, hu.owner, hunused⟩

theorem Untouchable.fire (hs : h.Sound) (hoff : h.Indexes IsOffset) (now : Int) {k : ℕ}
    {task : Task} (htask : h.tasks[k]? = some task) : Untouchable cfg a (h.fire now k task) := by
  have hmem := List.mem_of_getElem? htask
  have hne : (cfg.position a).toNat ≠ safeIntToUint64 task.index := by
    intro heq
    apply hu.unused.pending task hmem
    rw [heq, (hoff.pending task hmem).safeIntToUint64_eq]
  have hcap := hs.capacity_eq (hs.fire now k task) rfl
  exact ⟨hu.start, hcap.trans hu.capacity, hu.dynamic,
    fun hlt => (DHCPHandler.fire_lookup_ne hne).trans (hu.owner hlt), hu.unused.fire now k task⟩

end Untouchable

structure ReservedKept (cfg : ScopeConfig) (w : World) : Prop where
  untouchable : ∀ a ∈ cfg.ipReserved, Untouchable cfg a w.handler
  answers : ∀ r ∈ w.log, ∀ a ∈ cfg.ipReserved, ¬ r.Grants a

theorem reservedKept_init {cfg : ScopeConfig} (hstatic : cfg.ipAssigned = []) (network : IPNet)
    (ipv4 : Option IPv4) (now : Int) : ReservedKept cfg (World.init cfg network ipv4 now) := by
  refine ⟨fun a ha => ⟨rfl, readConfig_capacity cfg, fun m => ?_, fun hlt => ?_,
    readConfig_indexes cfg _⟩, fun r hr => nomatch hr⟩
  · show (readConfig cfg).ipAssigned.lookup m = none
    rw [readConfig_ipAssigned, hstatic]
    rfl
  · have hmem : ((cfg.position a).toNat, FakeMac) ∈ cfg.reservations :=
      List.mem_append_left _ (List.mem_map_of_mem ha)
    obtain ⟨-, hno⟩ | ⟨e, he, -, hown⟩ := readConfig_free cfg hlt
    · exact absurd rfl (hno _ hmem)
    · rw [ScopeConfig.reservations, hstatic, List.map_nil, List.append_nil] at he
      obtain ⟨b, -, rfl⟩ := List.mem_map.mp he
      exact hown

section Reserved
variable {cfg : ScopeConfig} {w w' : World} {e : Event} (hreg : w.Regular cfg)
  (hinv : ReservedKept cfg w) (hsilent : e.Silent) (hok : ¬ w.AsksReserved cfg e)
  (hst : World.Stepped w e w')
include hreg hinv hsilent hok hst

theorem untouchable_step {a : IPv4} (ha : a ∈ cfg.ipReserved) : Untouchable cfg a w'.handler := by
  have hu := hinv.untouchable a ha
  cases hst with
  | dropped => exact hu
  | handled p t env fuel g h answer hadmits _ hh =>
    have hask : t = .discover → w.handler.Searches w.now p → w.handler.CanAllot p →
        ¬ p.AsksAs a (cfg.sentinel a) := by
      rintro rfl hsearch hcan hask
      exact hok ⟨hadmits, hsearch, hcan, a, ha, hask⟩
    exact (Moves.invariant (Untouchable cfg a)
      (fun _ _ hm hs hu => hu.move hm hs hsilent hask) hh.moves hreg.sound hu).2
  | tick => exact hu
  | purge => exact hu.purge w.now
  | fire k task htask => exact hu.fire hreg.sound hreg.offsets w.now htask

theorem ReservedKept.step : ReservedKept cfg w' := by
  refine ⟨fun a ha => untouchable_step hreg hinv hsilent hok hst ha, fun r hr a ha hgrant => ?_⟩
  obtain hold | ⟨p, t, env, fuel, h, rfl, hadmits, hh, -⟩ := hst.grants hr hgrant
  · exact hinv.answers r hold a ha hgrant
  have hu := hinv.untouchable a ha
  obtain ⟨position, hstat, -⟩ | ⟨index, hsrc, haddr⟩ := hh.source hgrant
  · cases (hu.dynamic _).symm.trans hstat
  · have hindex := hreg.index_eq (hsrc.isOffset hreg.sound hreg.offsets) haddr
    -- each source of the index is closed: the cache, option 50 and the free indexes
    cases hsrc with
    | cached _ hget => exact hu.unused.of_get hget hindex
    | asked i htype hsearch hcan hreq hown =>
      subst htype
      refine hu.of_requested hreg.sound (fun hask => ?_) hreq hown hindex
      exact hok ⟨hadmits, hsearch, hcan, a, ha, hask⟩
    | fresh i _ hfree =>
      have hi : i = (cfg.position a).toNat := by omega
      exact hu.notMem_free hreg.sound (hi ▸ hfree)
    | fallback _ hping => exact hsilent.not_answered hping

end Reserved

/-- No OFFER and no ACK names a reserved address, unless a client with a sentinel as its
hardware address asks for one. -/
theorem reserved_addresses_kept {cfg : ScopeConfig} {network : IPNet} {ipv4 : Option IPv4}
    {now : Int} {w : World} (hstatic : cfg.ipAssigned = [])
    (hrun : World.RunsTo (fun w e => e.Silent ∧ ¬ w.AsksReserved cfg e) cfg network ipv4 now w)
    {r : Record} (hr : r ∈ w.log) {a : IPv4} (ha : a ∈ cfg.ipReserved) : ¬ r.Grants a := by
  have hinv := World.RunsTo.invariant (ReservedKept cfg) hrun
    (reservedKept_init hstatic network ipv4 now)
    (fun w e w' hreg hinv hok hst => hinv.step hreg hok.1 hok.2 hst)
  exact hinv.2.answers r hr a ha

/-- `ff:…:ff` is offered 10.0.0.12, and the same again when it asks for the reserved address. -/
theorem reserved_addresses_kept_sample : ∃ w, World.RunsTo (fun w e => e.Silent ∧
      ¬ w.AsksReserved (Sample.scope [0x0a00000a#32] []) e) (Sample.scope [0x0a00000a#32] [])
      Sample.network none 0 w ∧
    ∃ r ∈ w.log, r.mac = FakeMac ∧ r.Grants 0x0a00000c#32 ∧ ¬ r.Grants 0x0a00000a#32 := by
  have hall : ∀ e ∈ [Sample.send [2, 0, 0, 0, 0, 1] 1 (some 0x0a00000a#32) .discover,
      Sample.send [255, 255, 255, 255, 255, 255] 2 (some 0x0a00000c#32) .discover,
      Sample.send [255, 255, 255, 255, 255, 255] 3 (some 0x0a00000a#32) .discover],
      e.Silent := by
    simp [Event.Silent, Sample.send, Sample.silent_env]
  obtain ⟨w, hrun, hp⟩ := Sample.exists_runsTo (Sample.scope [0x0a00000a#32] [])
    (fun w e => ¬ w.AsksReserved (Sample.scope [0x0a00000a#32] []) e) _
    (fun w => w.log.any fun r => decide (r.mac = FakeMac) && decide (r.Grants 0x0a00000c#32))
    hall (by decide +kernel)
  obtain ⟨r, hr, hfound⟩ := List.any_eq_true.mp hp
  simp only [Bool.and_eq_true, decide_eq_true_eq] at hfound
  exact ⟨w, hrun, r, hr, hfound.1, hfound.2,
    reserved_addresses_kept rfl hrun hr (List.mem_singleton.mpr rfl)⟩

def Event.SixBytes : Event → Prop
  | .packet p _ _ _ => p.chaddr.length = 6
  | _ => True

/-- A client with the hardware address `ff:ff:ff:ff:ff:ff` passes for the owner of every
reserved address. -/
theorem reserved_address_offered : ¬ ∀ (cfg : ScopeConfig) (network : IPNet)
    (ipv4 : Option IPv4) (now : Int) (w : World), cfg.ipAssigned = [] →
    (∀ a ∈ cfg.ipReserved, cfg.dhcpStart.toNat ≤ a.toNat ∧ a.toNat ≤ cfg.dhcpEnd.toNat) →
    World.RunsTo (fun _ e => e.SixBytes ∧ e.Silent) cfg network ipv4 now w →
    ∀ r ∈ w.log, ∀ a ∈ cfg.ipReserved, ¬ r.Grants a := by
  intro hclaim
  have hall : ∀ e ∈ [Sample.send [255, 255, 255, 255, 255, 255] 1 (some 0x0a00000a#32) .discover],
      e.SixBytes ∧ e.Silent := by
    simp [Event.SixBytes, Event.Silent, Sample.send, Sample.packet, Sample.silent_env]
  obtain ⟨w, hrun, hp⟩ := Sample.exists_run (Sample.scope [0x0a00000a#32] []) _
    (fun w => w.log.any fun r => decide (r.Grants 0x0a00000a#32)) hall (by decide +kernel)
  obtain ⟨r, hr, hfound⟩ := List.any_eq_true.mp hp
  refine hclaim (Sample.scope [0x0a00000a#32] []) Sample.network none 0 w rfl ?_ hrun r hr _
    (List.mem_singleton.mpr rfl) (of_decide_eq_true hfound)
  intro a ha
  cases List.mem_singleton.mp ha
  decide

end StandaloneDHCP
