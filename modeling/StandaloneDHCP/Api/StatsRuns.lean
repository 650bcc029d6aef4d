import StandaloneDHCP.Api.Stats
import StandaloneDHCP.Lib.InverseCaches
import StandaloneDHCP.Overrides.OptionValues
import StandaloneDHCP.Server.ConfiguredAddresses
import StandaloneDHCP.Server.Leases

/-! The statistics of a scope without static addresses, along every run of ordinary clients in
which no ping is answered and no sleeping `FreeIPIndex` fires on an index with an unexpired entry
of its owner. The unexpired entries of `hwcache` are then on indexes that the pool records for
their clients, and none of them is on a reserved address. So the count of the members never passes
the count of the pool, and the two agree, which is what the status reports, exactly when no address
is on its way back to the pool. -/
namespace StandaloneDHCP
open Lib
set_option autoImplicit false

/-! ## Entries and owners -/

/-- The pool records the client of every unexpired entry as the owner of the entry's index. -/
def DHCPHandler.EntriesOwned (now : Int) (h : DHCPHandler) : Prop :=
  ∀ m e, h.hwcache.peek m = some e → e.expired now = false →
    h.available.mac.lookup (safeIntToUint64 e.object) = some m

section Moves
variable {env : Env} {now : Int} {p : Packet} {t : MessageType} {h₀ h h' : DHCPHandler}

/-- The client's own entry after a move: gone, on an index of the client, or as it was. -/
theorem Move.sender_entry (hm : Move env now p t h₀ h h') (hs : h.Sound) (hsilent : env.Silent)
    (hmac : p.clientMac ≠ FreeMac) (hdyn : h.ipAssigned.lookup p.clientMac = none)
    {e : Item Int} (he : h'.hwcache.peek p.clientMac = some e) :
    h'.available.mac.lookup (safeIntToUint64 e.object) = some p.clientMac ∨
      h.hwcache.peek p.clientMac = some e := by
  cases hm with
  | note => exact .inr he
  | secure => exact .inr he
  | renew index d _ _ hown =>
    rw [DHCPHandler.peek_lock] at he
    cases he
    exact .inl (hs.lookup_of_ownerOf hmac hown)
  | claim i _ _ _ hown =>
    rw [DHCPHandler.peek_lock] at he
    cases he
    exact .inl (hs.lookup_of_ownerOf hmac hown)
  | allot i =>
    rw [DHCPHandler.peek_lock] at he
    cases he
    rw [safeIntToUint64_natCast]
    exact .inl (Finmap.lookup_insert _)
  | evict =>
    rw [DHCPHandler.peek_evict] at he
    cases he
  | regain =>
    have hnone := h.peek_evict now p.clientMac
    cases he.symm.trans hnone
  | contest k e' _ hping =>
    rw [hsilent] at hping
    cases hping
  | fallback _ _ hping => exact absurd hping hsilent.not_answered
  | retire x =>
    rw [DHCPHandler.peek_evict] at he
    cases he
  | pin position d _ hassigned => cases hdyn.symm.trans hassigned

theorem Move.entriesOwned (hm : Move env now p t h₀ h h') (hs : h.Sound) (hsilent : env.Silent)
    (hmac : p.clientMac ≠ FreeMac) (hdyn : h.ipAssigned.lookup p.clientMac = none)
    (howned : h.EntriesOwned now) : h'.EntriesOwned now := by
  intro m e he hfresh
  by_cases hm' : m = p.clientMac
  · subst hm'
    obtain hown | hold := hm.sender_entry hs hsilent hmac hdyn he
    · exact hown
    · exact hm.owner hs (howned _ e hold hfresh)
  · rw [hm.peek_ne hm'] at he
    exact hm.owner hs (howned m e he hfresh)

end Moves

/-- The event is the firing of a sleeping free of an index whose owner still has it in an
unexpired cache entry. -/
def World.FreesHeld (w : World) : Event → Prop
  | .fire k => ∃ task ∈ w.handler.tasks[k]?,
      ∃ m ∈ w.handler.available.mac.lookup (safeIntToUint64 task.index),
        (w.handler.hwcache.get w.now m).map safeIntToUint64 = some (safeIntToUint64 task.index)
  | _ => False

instance (w : World) (e : Event) : Decidable (w.FreesHeld e) :=
  match e with
  | .fire _ => Option.decidableExistsMem _
  | .packet _ _ _ _ => inferInstanceAs (Decidable False)
  | .tick _ => inferInstanceAs (Decidable False)
  | .purge => inferInstanceAs (Decidable False)

section Steps
variable {cfg : ScopeConfig} {w w' : World} {e : Event}

/-- In an ordinary event no client passes for the owner of a reserved address. -/
theorem Event.Ordinary.not_asksReserved (hord : e.Ordinary) : ¬ w.AsksReserved cfg e := by
  intro hasks
  cases e with
  | packet p t env fuel =>
    cases t with
    | discover =>
      obtain ⟨-, -, -, a, -, -, hmac⟩ := hasks
      unfold ScopeConfig.sentinel at hmac
      split at hmac
      · exact hord.2.2 hmac
      · exact hord.2.1 hmac
    | _ => exact hasks
  | _ => exact hasks

theorem entriesOwned_step (hreg : w.Regular cfg) (hdyn : ∀ m, w.handler.ipAssigned.lookup m = none)
    (hord : e.Ordinary) (hsilent : e.Silent) (hfree : ¬ w.FreesHeld e)
    (howned : w.handler.EntriesOwned w.now) (hst : World.Stepped w e w') :
    w'.handler.EntriesOwned w'.now := by
  cases hst with
  | dropped => exact howned
  | handled p t env fuel g h answer _ _ hh =>
    refine (Moves.invariant (fun h => (∀ m, h.ipAssigned.lookup m = none) ∧
      h.EntriesOwned w.now) ?_ hh.moves hreg.sound ⟨hdyn, howned⟩).2.2
    rintro h h' hm hs ⟨hdyn, howned⟩
    refine ⟨?_, hm.entriesOwned hs hsilent hord.2.1 (hdyn _) howned⟩
    rw [DHCPHandler.ipAssigned_of_settings hm.settings]
    exact hdyn
  | tick d =>
    intro m e he hfresh
    have hle : w.now ≤ w.now + d := by omega
    exact howned m e he (Item.expired_mono hle hfresh)
  | purge =>
    intro m e he hfresh
    rw [DHCPHandler.purge_eq] at *
    exact howned m e (Cache.peek_deleteExpired.mp he).1 hfresh
  | fire k task htask =>
    intro m e he hfresh
    have hown := howned m e he hfresh
    have hne : safeIntToUint64 e.object ≠ safeIntToUint64 task.index := by
      intro heq
      have hget : w.handler.hwcache.get w.now m = some e.object :=
        Cache.get_eq_some.mpr ⟨e, he, hfresh, rfl⟩
      refine hfree ⟨task, htask, m, heq ▸ hown, ?_⟩
      rw [hget, ← heq]
      rfl
    exact (DHCPHandler.fire_lookup_ne hne).trans hown

end Steps

/-- What the statistics rest on. -/
structure Counted (cfg : ScopeConfig) (w : World) : Prop where
  owned : w.handler.EntriesOwned w.now
  reserved : ReservedKept cfg w

theorem counted_of_run {cfg : ScopeConfig} {network : IPNet} {ipv4 : Option IPv4} {now : Int}
    {w : World} (hstatic : cfg.ipAssigned = [])
    (hrun : World.RunsTo (fun w e => (e.Ordinary ∧ e.Silent) ∧ ¬ w.FreesHeld e) cfg network ipv4
      now w) : w.Regular cfg ∧ Counted cfg w := by
  refine World.RunsTo.invariant (Counted cfg) hrun ?_ ?_
  · refine ⟨?_, reservedKept_init hstatic network ipv4 now⟩
    intro m e he
    cases he
  · intro w e w' hreg hinv hok hst
    obtain ⟨⟨hord, hsilent⟩, hfree⟩ := hok
    have hdyn := ipAssigned_of_no_static hreg hstatic
    exact ⟨entriesOwned_step hreg hdyn hord hsilent hfree hinv.owned hst,
      hinv.reserved.step hreg hsilent hord.not_asksReserved hst⟩

/-! ## The two counts -/

namespace World
variable (cfg : ScopeConfig) (w : World)

/-- The indexes of the members. -/
def memberIndexes : List ℕ :=
  (w.handler.hwcache.unexpired w.now).entries.map fun e => safeIntToUint64 e.2.object

def reservedIndexes : Finset ℕ := cfg.ipReserved.toFinset.image fun a => (cfg.position a).toNat

end World

section Counts
variable {cfg : ScopeConfig} {w : World}

theorem mem_unexpired {h : DHCPHandler} {now : Int} {m : String} {e : Item Int} :
    (⟨m, e⟩ : Sigma fun _ : String => Item Int) ∈ (h.hwcache.unexpired now).entries ↔
      h.hwcache.peek m = some e ∧ e.expired now = false := by
  rw [← AList.mem_lookup_iff]
  exact Cache.peek_deleteExpired

/-- The entries are told apart by what is told apart by their indexes. -/
theorem Counted.nodup_map (hc : Counted cfg w) {β : Type}
    (f : (Sigma fun _ : String => Item Int) → β)
    (hf : ∀ e ∈ (w.handler.hwcache.unexpired w.now).entries,
      ∀ e' ∈ (w.handler.hwcache.unexpired w.now).entries,
      f e = f e' → safeIntToUint64 e.2.object = safeIntToUint64 e'.2.object) :
    ((w.handler.hwcache.unexpired w.now).entries.map f).Nodup := by
  have hkeys : (w.handler.hwcache.unexpired w.now).entries.Nodup :=
    (w.handler.hwcache.unexpired w.now).nodupKeys.nodup
  refine hkeys.map_on ?_
  rintro ⟨m, e⟩ he ⟨m', e'⟩ he' heq
  have hindex : safeIntToUint64 e.object = safeIntToUint64 e'.object := hf _ he _ he' heq
  obtain ⟨hpeek, hfresh⟩ := mem_unexpired.mp he
  obtain ⟨hpeek', hfresh'⟩ := mem_unexpired.mp he'
  have hown := hc.owned m e hpeek hfresh
  rw [hindex, hc.owned m' e' hpeek' hfresh'] at hown
  cases hown
  cases hpeek.symm.trans hpeek'
  rfl

theorem Counted.nodup_memberIndexes (hc : Counted cfg w) : w.memberIndexes.Nodup :=
  hc.nodup_map _ fun _ _ _ _ heq => heq

theorem Counted.members_owned (hreg : w.Regular cfg) (hc : Counted cfg w) :
    w.memberIndexes.toFinset ⊆ w.handler.available.mac.keys \ World.reservedIndexes cfg := by
  intro i hi
  obtain ⟨⟨m, e⟩, he, rfl⟩ := List.mem_map.mp (List.mem_toFinset.mp hi)
  obtain ⟨hpeek, hfresh⟩ := mem_unexpired.mp he
  rw [Finset.mem_sdiff, Finmap.mem_keys]
  refine ⟨Finmap.mem_of_lookup_eq_some (hc.owned m e hpeek hfresh), fun hreserved => ?_⟩
  obtain ⟨a, ha, heq⟩ := Finset.mem_image.mp hreserved
  have hunused := (hc.reserved.untouchable a (List.mem_toFinset.mp ha)).unused
  apply hunused.cached m e hpeek
  rw [heq, (hreg.offsets.cached m e hpeek).safeIntToUint64_eq]

section Reserved
variable (hnodup : cfg.ipReserved.Nodup)
  (hinside : ∀ a ∈ cfg.ipReserved, cfg.dhcpStart.toNat ≤ a.toNat ∧ a.toNat ≤ cfg.dhcpEnd.toNat)

include hnodup in
theorem card_reservedIndexes : (World.reservedIndexes cfg).card = cfg.ipReserved.length := by
  rw [World.reservedIndexes, Finset.card_image_of_injOn fun a _ b _ h => cfg.position_inj h,
    List.toFinset_card_of_nodup hnodup]

include hinside in
theorem Counted.reserved_owned (hc : Counted cfg w) :
    World.reservedIndexes cfg ⊆ w.handler.available.mac.keys := by
  intro i hi
  obtain ⟨a, ha, rfl⟩ := Finset.mem_image.mp hi
  rw [List.mem_toFinset] at ha
  obtain ⟨hlo, hhi⟩ := hinside a ha
  rw [Finmap.mem_keys]
  exact Finmap.mem_of_lookup_eq_some
    ((hc.reserved.untouchable a ha).owner (cfg.position_lt_size hlo hhi))

include hnodup hinside

/-- The members and the reserved addresses are among the addresses in use. They are all of them
if every address in use is reserved or has an unexpired entry. -/
theorem Counted.used (hreg : w.Regular cfg) (hc : Counted cfg w) :
    w.memberIndexes.length + cfg.ipReserved.length ≤ w.handler.available.mac.keys.card ∧
      (w.memberIndexes.length + cfg.ipReserved.length = w.handler.available.mac.keys.card ↔
        w.handler.available.mac.keys \ World.reservedIndexes cfg ⊆
          w.memberIndexes.toFinset) := by
  have hmembers := hc.members_owned hreg
  have hle := Finset.card_le_card hmembers
  have hsplit := Finset.card_sdiff_add_card_eq_card (hc.reserved_owned hinside)
  rw [card_reservedIndexes hnodup] at hsplit
  have hcard := List.toFinset_card_of_nodup hc.nodup_memberIndexes
  refine ⟨by omega, fun heq => ?_, fun hsub => ?_⟩
  · exact (Finset.eq_of_subset_of_card_le hmembers (by omega)).ge
  · have := Finset.card_le_card hsub
    omega

end Reserved

/-- Every address in use is reserved or has an unexpired entry. -/
def World.Settled (cfg : ScopeConfig) (w : World) : Prop :=
  ∀ i < cfg.size, i ∉ w.handler.available.free →
    (∃ a ∈ cfg.ipReserved, (cfg.position a).toNat = i) ∨
      ∃ m, w.handler.hwcache.get w.now m = some (i : Int)

theorem mem_keys_iff (hreg : w.Regular cfg) {i : ℕ} :
    i ∈ w.handler.available.mac.keys ↔ i < cfg.size ∧ i ∉ w.handler.available.free := by
  have hpool := hreg.sound.pool
  rw [Finmap.mem_keys, Finmap.mem_iff, ← hreg.capacity]
  constructor
  · rintro ⟨m, hm⟩
    exact ⟨hpool.owned_lt hm, hpool.notMem_free hm⟩
  · rintro ⟨hlt, hfree⟩
    exact hpool.exists_owner hlt hfree

theorem mem_memberIndexes (hreg : w.Regular cfg) {i : ℕ} :
    i ∈ w.memberIndexes ↔ ∃ m, w.handler.hwcache.get w.now m = some (i : Int) := by
  rw [World.memberIndexes, List.mem_map]
  constructor
  · rintro ⟨⟨m, e⟩, he, rfl⟩
    obtain ⟨hpeek, hfresh⟩ := mem_unexpired.mp he
    refine ⟨m, Cache.get_eq_some.mpr ⟨e, hpeek, hfresh, ?_⟩⟩
    rw [(hreg.offsets.cached m e hpeek).safeIntToUint64_eq]
  · rintro ⟨m, hget⟩
    obtain ⟨e, hpeek, hfresh, hobject⟩ := Cache.get_eq_some.mp hget
    refine ⟨⟨m, e⟩, mem_unexpired.mpr ⟨hpeek, hfresh⟩, ?_⟩
    rw [hobject, safeIntToUint64_natCast]

theorem settled_iff (hreg : w.Regular cfg) : w.Settled cfg ↔
    w.handler.available.mac.keys \ World.reservedIndexes cfg ⊆ w.memberIndexes.toFinset := by
  constructor
  · intro hsettled i hi
    obtain ⟨hused, hreserved⟩ := Finset.mem_sdiff.mp hi
    obtain ⟨hlt, hfree⟩ := (mem_keys_iff hreg).mp hused
    rw [List.mem_toFinset, mem_memberIndexes hreg]
    refine (hsettled i hlt hfree).resolve_left ?_
    rintro ⟨a, ha, rfl⟩
    exact hreserved (Finset.mem_image_of_mem _ (List.mem_toFinset.mpr ha))
  · intro hsub i hlt hfree
    by_cases hreserved : i ∈ World.reservedIndexes cfg
    · obtain ⟨a, ha, heq⟩ := Finset.mem_image.mp hreserved
      exact .inl ⟨a, List.mem_toFinset.mp ha, heq⟩
    · have hmem := hsub (Finset.mem_sdiff.mpr ⟨(mem_keys_iff hreg).mpr ⟨hlt, hfree⟩, hreserved⟩)
      exact .inr ((mem_memberIndexes hreg).mp (List.mem_toFinset.mp hmem))

theorem World.Regular.used (hreg : w.Regular cfg) :
    w.handler.leaseRange - w.handler.availableCount =
      (w.handler.available.mac.keys.card : Int) := by
  have hcard := hreg.sound.pool.card_add_card
  have hrange := hreg.sound.range
  have hfits := hreg.sound.fits
  have hmax : w.handler.available.freeIPsRemaining ≤ maxInt := by
    unfold maxInt
    omega
  rw [DHCPHandler.availableCount, safeUint64ToInt_of_le hmax]
  omega

theorem ipString_inj {a b : IPv4} (heq : ipString a = ipString b) : a = b := by
  have hparse := parseIPv4_ipString a
  rw [heq, parseIPv4_ipString b] at hparse
  exact (beBytes_inj.mp (Option.some.inj hparse)).symm

theorem Counted.nodup_members (hreg : w.Regular cfg) (hc : Counted cfg w) :
    ((w.handler.members w.now).map Node.ip).Nodup := by
  rw [DHCPHandler.members, List.map_map]
  refine hc.nodup_map _ fun ⟨m, e⟩ he ⟨m', e'⟩ he' heq => ?_
  have hoff := hreg.offsets.cached m e (mem_unexpired.mp he).1
  have hoff' := hreg.offsets.cached m' e' (mem_unexpired.mp he').1
  have haddr : ipAdd w.handler.start e.object = ipAdd w.handler.start e'.object :=
    ipString_inj heq
  rw [hoff.eq_of_ipAdd hoff' haddr]

end Counts

/-- A scope has no static addresses, and its reserved ones are written without repetition inside
of the range. In a run of ordinary clients without an answered ping, and without a free of an index
that an unexpired entry holds, the statistics show each address once, never more members and
reserved addresses than addresses in use, and the status is `Normal` exactly if every address in
use is reserved or has an unexpired entry (and the number of reserved ones is not one). -/
theorem status_normal_iff_settled {cfg : ScopeConfig} {network : IPNet} {ipv4 : Option IPv4}
    {now : Int} {w : World} (env : StatsEnv) (netInterface : String) (v : StatsNetwork)
    (items : List ReservedItem) (hstatic : cfg.ipAssigned = [])
    (hrun : World.RunsTo (fun w e => (e.Ordinary ∧ e.Silent) ∧ ¬ w.FreesHeld e) cfg network ipv4
      now w)
    (hhandler : v.dhcpHandler = w.handler) (htext : v.ipReserved = reservedText items)
    (hreserved : cfg.ipReserved = items.flatMap ReservedItem.addresses)
    (hnodup : cfg.ipReserved.Nodup)
    (hinside : ∀ a ∈ cfg.ipReserved,
      cfg.dhcpStart.toNat ≤ a.toNat ∧ a.toNat ≤ cfg.dhcpEnd.toNat) :
    ∃ stats, v.stats env (2 ^ 32) w.now netInterface = some stats ∧
      (stats.members.map Node.ip).Nodup ∧
      (stats.members.length + cfg.ipReserved.length : Int) ≤ stats.used ∧
      (stats.status = "Normal" ↔ cfg.ipReserved.length ≠ 1 ∧ w.Settled cfg) := by
  obtain ⟨hreg, hc⟩ := counted_of_run hstatic hrun
  obtain ⟨hle, hiff⟩ := hc.used hnodup hinside hreg
  rw [← settled_iff hreg] at hiff
  obtain ⟨r, hrange, hr⟩ := reserved_count items
  rw [← hreserved] at hr
  have hmembers : (v.dhcpHandler.members w.now).length = w.memberIndexes.length := by
    rw [hhandler, DHCPHandler.members, World.memberIndexes, List.length_map, List.length_map]
  have hcount : v.count (2 ^ 32) w.now = some (w.memberIndexes.length +
      if cfg.ipReserved.length ≠ 1 then (cfg.ipReserved.length : Int) else 0) := by
    rw [StatsNetwork.count, htext, hrange, Option.map_some, hmembers, ← hr]
    split <;> simp
  have hused : v.dhcpHandler.leaseRange - v.dhcpHandler.availableCount =
      (w.handler.available.mac.keys.card : Int) := by
    rw [hhandler]
    exact hreg.used
  obtain ⟨stats, hstats, hnormal⟩ := StatsNetwork.stats_normal_iff env netInterface hcount
  refine ⟨stats, hstats, ?_⟩
  have hfields : stats.members = v.dhcpHandler.members w.now ∧
      stats.used = v.dhcpHandler.leaseRange - v.dhcpHandler.availableCount := by
    rw [StatsNetwork.stats, hcount] at hstats
    cases hstats
    exact ⟨rfl, rfl⟩
  rw [hfields.1, hfields.2, hmembers, hnormal, hused, hhandler]
  refine ⟨hc.nodup_members hreg, by omega, ?_⟩
  rw [← hiff]
  by_cases hone : cfg.ipReserved.length = 1
  · rw [if_neg (not_not.mpr hone)]
    omega
  · rw [if_pos hone]
    omega

/-- One client of a scope without reserved addresses has a lease. -/
theorem status_normal_iff_settled_sample : ∃ (w : World) (stats : Stats),
    World.RunsTo (fun w e => (e.Ordinary ∧ e.Silent) ∧ ¬ w.FreesHeld e) (Sample.scope [] [])
      Sample.network none 0 w ∧
    (⟨w.network, "none", ""⟩ : StatsNetwork).stats
      ⟨RangeOrder.ascending, fun _ => "", fun _ _ => "", fun _ => "", fun _ _ => 0⟩ (2 ^ 32) w.now
      "eth0" = some stats ∧ w.handler.available.free = {1, 2} ∧ stats.status = "Normal" := by
  have hall : ∀ e ∈ [Sample.send [2, 0, 0, 0, 0, 1] 1 none .discover,
      Sample.send [2, 0, 0, 0, 0, 1] 1 (some 0x0a00000a#32) .request], e.Ordinary ∧ e.Silent := by
    intro e he
    refine ⟨?_, ?_⟩
    · revert e
      decide +kernel
    · revert e
      simp [Event.Silent, Sample.send, Sample.silent_env]
  obtain ⟨w, hrun, hp⟩ := Sample.exists_runsTo (Sample.scope [] []) (fun w e => ¬ w.FreesHeld e) _
    (fun w => decide (w.handler.available.free = {1, 2}) &&
      decide (w.handler.hwcache.get w.now "02:00:00:00:00:01" = some 0)) hall (by decide +kernel)
  obtain ⟨hfree, hget⟩ := Bool.and_eq_true_iff.mp hp
  rw [decide_eq_true_iff] at hfree hget
  obtain ⟨stats, hstats, -, -, hnormal⟩ := status_normal_iff_settled
    ⟨RangeOrder.ascending, fun _ => "", fun _ _ => "", fun _ => "", fun _ _ => 0⟩ "eth0"
    ⟨w.network, "none", ""⟩ [] rfl hrun rfl rfl rfl List.nodup_nil (by simp [Sample.scope])
  have hsettled : w.Settled (Sample.scope [] []) := by
    intro i hi hused
    have hlt : i < 3 := hi
    rw [hfree] at hused
    obtain rfl : i = 0 := by
      simp at hused
      omega
    exact .inr ⟨_, hget⟩
  exact ⟨w, stats, hrun, hstats, hfree, hnormal.mpr ⟨by decide, hsettled⟩⟩

end StandaloneDHCP
