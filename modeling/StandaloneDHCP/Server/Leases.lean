import StandaloneDHCP.Server.HandlerRun

/-! Leases in force, read off the log of a run. A lease of `m` on `a` runs from an ACK until
the lease time has passed, and ends early with a DISCOVER, RELEASE or DECLINE of `m` or a NAK
to `m`. While it runs, the hardware cache maps `m` to the index of `a` and the pool records
`m` as its owner (`LeasesBacked`), so two clients cannot hold one address. The one step that
breaks this is a sleeping `FreeIPIndex` that was started for an earlier entry and fires while
the index is leased again. -/
namespace StandaloneDHCP
open Lib
set_option autoImplicit false

/-! ## Leases -/

def Record.ends (r : Record) : Bool :=
  r.messageType == .discover || r.messageType == .release || r.messageType == .decline ||
    r.answer.isNak

/-- The time of the last ACK of `a` to `m`, if no later packet ended the lease. -/
def lastAck (m : String) (a : IPv4) : List Record → Option Int
  | [] => none
  | r :: log =>
    if r.mac = m then
      if r.ends then none
      else if r.answer.acked = some a then some r.time
      else lastAck m a log
    else lastAck m a log

namespace World

def InForce (w : World) (m : String) (a : IPv4) : Prop :=
  ∃ acked ∈ lastAck m a w.log, w.now - acked < w.handler.leaseDuration

instance (w : World) (m : String) (a : IPv4) : Decidable (w.InForce m a) :=
  Option.decidableExistsMem _

/-- The event is the firing of a sleeping free of the index of an address that `m` has on lease. -/
def FreesLease (w : World) (m : String) : Event → Prop
  | .fire k => ∃ task ∈ w.handler.tasks[k]?,
      w.InForce m (ipAdd w.handler.start (safeIntToUint64 task.index))
  | _ => False

/-- Some client has the address on lease. -/
def FreesLeased (w : World) (e : Event) : Prop := ∃ r ∈ w.log, w.FreesLease r.mac e

end World

instance (w : World) (m : String) (e : Event) : Decidable (w.FreesLease m e) :=
  match e with
  | .fire _ => Option.decidableExistsMem _
  | .packet _ _ _ _ => inferInstanceAs (Decidable False)
  | .tick _ => inferInstanceAs (Decidable False)
  | .purge => inferInstanceAs (Decidable False)

instance (w : World) (e : Event) : Decidable (w.FreesLeased e) :=
  inferInstanceAs (Decidable (∃ r ∈ w.log, w.FreesLease r.mac e))

/-! ## What backs a lease -/

/-- The entry of `m` names `a`, lives at least as long as the lease, and is owned by `m`. -/
def Backs (h : DHCPHandler) (m : String) (a : IPv4) (acked : Int) : Prop :=
  ∃ e, h.hwcache.peek m = some e ∧ ipAdd h.start e.object = a ∧
    (∀ x, e.expiration = some x → acked + h.leaseDuration ≤ x) ∧
    h.available.mac.lookup (safeIntToUint64 e.object) = some m

/-- The leases of `m` that are in force. -/
def LeasesBacked (m : String) (w : World) : Prop :=
  ∀ a acked, lastAck m a w.log = some acked → w.now - acked < w.handler.leaseDuration →
    Backs w.handler m a acked

theorem unexpired_of_lease {e : Item Int} {now acked duration : Int}
    (hlive : ∀ x, e.expiration = some x → acked + duration ≤ x)
    (hforce : now - acked < duration) : e.expired now = false := by
  unfold Item.expired
  cases hx : e.expiration with
  | none => rfl
  | some x =>
    have hle := hlive x hx
    simp only [decide_eq_false_iff_not]
    omega

section Backs
variable {h h' : DHCPHandler} {m : String} {a : IPv4} {acked now : Int}

theorem Backs.get (hb : Backs h m a acked) (hforce : now - acked < h.leaseDuration) :
    ∃ index, h.hwcache.get now m = some index ∧ ipAdd h.start index = a ∧
      h.available.mac.lookup (safeIntToUint64 index) = some m := by
  obtain ⟨e, he, haddr, hlive, hown⟩ := hb
  have hfresh := unexpired_of_lease hlive hforce
  exact ⟨e.object, Cache.get_eq_some.mpr ⟨e, he, hfresh, rfl⟩, haddr, hown⟩

theorem Backs.moves {env : Env} {p : Packet} {t : MessageType} (hb : Backs h m a acked)
    (hs : h.Sound) (hm : Moves env now p t h h h') (hne : m ≠ p.clientMac) :
    Backs h' m a acked := by
  obtain ⟨e, he, haddr, hlive, hown⟩ := hb
  refine ⟨e, (hm.peek_ne hne).trans he, ?_, ?_, hm.owner hs hown⟩
  · rw [DHCPHandler.start_of_settings hm.settings]
    exact haddr
  · rw [DHCPHandler.leaseDuration_of_settings hm.settings]
    exact hlive

theorem Backs.purge (hb : Backs h m a acked) (hforce : now - acked < h.leaseDuration) :
    Backs (h.purge now) m a acked := by
  obtain ⟨e, he, haddr, hlive, hown⟩ := hb
  have hfresh := unexpired_of_lease hlive hforce
  rw [DHCPHandler.purge_eq]
  exact ⟨e, Cache.peek_deleteExpired.mpr ⟨he, hfresh⟩, haddr, hlive, hown⟩

theorem Backs.fire {k : ℕ} {task : Task} (hb : Backs h m a acked) (hoff : h.Indexes IsOffset)
    (hother : a ≠ ipAdd h.start (safeIntToUint64 task.index)) :
    Backs (h.fire now k task) m a acked := by
  obtain ⟨e, he, haddr, hlive, hown⟩ := hb
  have hne : safeIntToUint64 e.object ≠ safeIntToUint64 task.index := by
    intro heq
    obtain ⟨i, hi⟩ := Int.eq_ofNat_of_zero_le (hoff.cached m e he).1
    rw [hi, safeIntToUint64_natCast] at heq
    apply hother
    rw [← haddr, ← heq, hi]
  exact ⟨e, he, haddr, hlive, (DHCPHandler.fire_lookup_ne hne).trans hown⟩

end Backs

/-! ## One packet -/

section Log
variable {m : String} {a : IPv4} {r : Record} {log : List Record} {acked : Int}

theorem lastAck_cons_ne (hne : r.mac ≠ m) : lastAck m a (r :: log) = lastAck m a log := by
  rw [lastAck, if_neg hne]

theorem lastAck_cons_ends (hm : r.mac = m) (hends : r.ends = true) :
    lastAck m a (r :: log) = none := by
  rw [lastAck, if_pos hm, if_pos hends]

theorem lastAck_of_cons (hack : r.answer.acked ≠ some a)
    (hlast : lastAck m a (r :: log) = some acked) : lastAck m a log = some acked := by
  rw [lastAck] at hlast
  by_cases hm : r.mac = m
  · rw [if_pos hm] at hlast
    split at hlast
    · cases hlast
    · exact hlast
  · rwa [if_neg hm] at hlast

theorem mem_of_lastAck (hlast : lastAck m a log = some acked) : ∃ r ∈ log, r.mac = m := by
  induction log with
  | nil => cases hlast
  | cons r log ih =>
    by_cases hm : r.mac = m
    · exact ⟨r, List.mem_cons_self, hm⟩
    · rw [lastAck_cons_ne hm] at hlast
      obtain ⟨r', hr', hm'⟩ := ih hlast
      exact ⟨r', List.mem_cons_of_mem r hr', hm'⟩

theorem lastAck_time (hm : r.mac = m) (hack : r.answer.acked = some a)
    (hlast : lastAck m a (r :: log) = some acked) : acked = r.time := by
  rw [lastAck, if_pos hm] at hlast
  split at hlast
  · cases hlast
  · cases hlast
    rfl

end Log

section Packet
variable {w : World} {p : Packet} {t : MessageType} {env : Env} {g : Globals} {h : DHCPHandler}
  {answer : Answer}

/-- The client that sent the packet: an ACK renews its entry, everything else either ends its
leases or leaves them alone. -/
theorem backs_sender (hs : w.handler.Sound) (hinv : LeasesBacked p.clientMac w)
    (hdyn : w.handler.ipAssigned.lookup p.clientMac = none) (hmac : p.clientMac ≠ FreeMac)
    (hh : Handled env w.now p t w.handler h answer) {a : IPv4} {acked : Int}
    (hlast : lastAck p.clientMac a (⟨w.now, p.clientMac, t, answer⟩ :: w.log) = some acked)
    (hforce : w.now - acked < h.leaseDuration) : Backs h p.clientMac a acked := by
  have hends : ∀ r : Record, r.mac = p.clientMac → r.ends = true →
      lastAck p.clientMac a (r :: w.log) ≠ some acked := by
    intro r hr he hl
    rw [lastAck_cons_ends hr he] at hl
    cases hl
  cases hh with
  | discover _ _ htype =>
    exact absurd hlast (hends _ rfl (by simp [Record.ends, htype]))
  | retire _ htype =>
    exact absurd hlast (hends _ rfl (by rcases htype with rfl | rfl <;> simp [Record.ends]))
  | refuse _ _ _ hnak => exact absurd hlast (hends _ rfl (by simp [Record.ends, hnak]))
  | request _ _ _ hspec =>
    cases hspec with
    | unchanged _ hack =>
      exact hinv a acked (lastAck_of_cons (by simp [hack]) hlast) hforce
    | dropped _ _ _ hnak => exact absurd hlast (hends _ rfl (by simp [Record.ends, hnak]))
    | pinned _ position hstat => cases hdyn.symm.trans hstat
    | renewed _ index _ hget hown hack =>
      have howner := hs.lookup_of_ownerOf hmac hown
      by_cases ha : ipAdd w.handler.start index = a
      · -- the ACK just sent: its entry outlives the lease by 15 seconds
        have htime : acked = w.now := lastAck_time rfl (by rw [hack, ha]) hlast
        refine ⟨⟨index, w.handler.hwcache.deadline w.now (w.handler.leaseDuration + 15 * second)⟩,
          Cache.peek_set _ _ _ _ _, ha, fun x hx => ?_, reserve_lookup hs.pool howner⟩
        have hforce' : w.now - acked < w.handler.leaseDuration := hforce
        have hsecond : 0 < second := by decide
        have hlife : 0 < w.handler.leaseDuration + 15 * second := by omega
        cases (Cache.deadline_of_pos w.handler.hwcache w.now hlife).symm.trans hx
        show acked + w.handler.leaseDuration ≤ _
        omega
      · -- a lease on another address would have a cache entry with another index
        have hlast' := lastAck_of_cons (by rw [hack]; simpa using ha) hlast
        obtain ⟨x, hget', haddr, -⟩ := (hinv a acked hlast' hforce).get hforce
        cases hget.symm.trans hget'
        exact absurd haddr ha

theorem leasesBacked_packet {m : String} (hs : w.handler.Sound) (hinv : LeasesBacked m w)
    (hdyn : w.handler.ipAssigned.lookup m = none) (hmac : m = p.clientMac → m ≠ FreeMac)
    (hh : Handled env w.now p t w.handler h answer) : LeasesBacked m (w.after p t g h answer) := by
  intro a acked hlast hforce
  by_cases hm : m = p.clientMac
  · have hne := hmac hm
    subst hm
    exact backs_sender hs hinv hdyn hne hh hlast hforce
  · have hlast' : lastAck m a w.log = some acked :=
      (lastAck_cons_ne (fun h => hm h.symm)).symm.trans hlast
    have hforce' : w.now - acked < w.handler.leaseDuration := by
      rw [← DHCPHandler.leaseDuration_of_settings hh.moves.settings]
      exact hforce
    exact (hinv a acked hlast' hforce').moves hs hh.moves hm

theorem leasesBacked_dropped {m : String} (hinv : LeasesBacked m w) (hnone : answer.d = none) :
    LeasesBacked m (w.after p t w.globals w.handler answer) := by
  intro a acked hlast hforce
  refine hinv a acked (lastAck_of_cons ?_ hlast) hforce
  rw [(Answer.silent hnone).1]
  exact nofun

end Packet

/-! ## Whole runs -/

/-- The packets of other clients do no harm, whatever they are. -/
theorem leasesBacked_step {cfg : ScopeConfig} {m : String} {w w' : World} {e : Event}
    (hreg : w.Regular cfg) (hdyn : w.handler.ipAssigned.lookup m = none)
    (hmac : m = FreeMac → e.Ordinary) (hfree : ¬ w.FreesLease m e) (hinv : LeasesBacked m w)
    (hst : World.Stepped w e w') : LeasesBacked m w' := by
  cases hst with
  | dropped p t env fuel answer hnone => exact leasesBacked_dropped hinv hnone
  | handled p t env fuel g h answer _ _ hh =>
    refine leasesBacked_packet hreg.sound hinv hdyn (fun hm hzero => ?_) hh
    exact (hmac hzero).2.1 (hm.symm.trans hzero)
  | tick d =>
    intro a acked hlast hforce
    have hforce' : w.now + d - acked < w.handler.leaseDuration := hforce
    exact hinv a acked hlast (by omega)
  | purge =>
    intro a acked hlast hforce
    have hdur : (w.handler.purge w.now).leaseDuration = w.handler.leaseDuration := by
      rw [DHCPHandler.purge_eq]
    have hforce' : w.now - acked < w.handler.leaseDuration := by
      rw [← hdur]
      exact hforce
    exact (hinv a acked hlast hforce').purge hforce'
  | fire k task htask =>
    intro a acked hlast hforce
    refine (hinv a acked hlast hforce).fire hreg.offsets ?_
    rintro rfl
    exact hfree ⟨task, htask, acked, hlast, hforce⟩

theorem ipAssigned_of_no_static {cfg : ScopeConfig} {w : World} (hreg : w.Regular cfg)
    (hstatic : cfg.ipAssigned = []) (m : String) : w.handler.ipAssigned.lookup m = none := by
  rw [hreg.ipAssigned, readConfig_ipAssigned, hstatic]
  rfl

theorem leasesBacked_of_run {ok : World → Event → Prop} {cfg : ScopeConfig} {network : IPNet}
    {ipv4 : Option IPv4} {now : Int} {w : World} {m : String}
    (hdyn : (readConfig cfg).ipAssigned.lookup m = none)
    (hrun : World.RunsTo ok cfg network ipv4 now w)
    (hok : ∀ w e, ok w e → (m = FreeMac → e.Ordinary) ∧ ¬ w.FreesLease m e) :
    w.Regular cfg ∧ LeasesBacked m w := by
  refine World.RunsTo.invariant (LeasesBacked m) hrun ?_ ?_
  · intro a acked hlast
    cases hlast
  · intro w e w' hreg hinv hstep hst
    obtain ⟨hmac, hfree⟩ := hok w e hstep
    exact leasesBacked_step hreg (by rw [hreg.ipAssigned]; exact hdyn) hmac hfree hinv hst

theorem World.FreesLease.leased {w : World} {m : String} {e : Event} (hfrees : w.FreesLease m e) :
    w.FreesLeased e := by
  cases e with
  | fire k =>
    obtain ⟨task, htask, acked, hlast, hforce⟩ := hfrees
    obtain ⟨r, hr, rfl⟩ := mem_of_lastAck hlast
    exact ⟨r, hr, task, htask, acked, hlast, hforce⟩
  | _ => exact hfrees.elim

/-- As long as no sleeping free fires on the index of an address that is on lease, one address is
leased to one client only. -/
theorem no_double_lease {cfg : ScopeConfig} {network : IPNet} {ipv4 : Option IPv4} {now : Int}
    {w : World} (hstatic : cfg.ipAssigned = [])
    (hrun : World.RunsTo (fun w e => (e.Ordinary ∧ e.Silent) ∧ ¬ w.FreesLeased e) cfg network ipv4
      now w) {m m' : String} {a : IPv4} (hm : w.InForce m a) (hm' : w.InForce m' a) : m = m' := by
  have hbacked : ∀ m, w.Regular cfg ∧ LeasesBacked m w := by
    intro m
    refine leasesBacked_of_run ?_ hrun fun w e hok => ⟨fun _ => hok.1.1, fun hfrees => ?_⟩
    · rw [readConfig_ipAssigned, hstatic]
      rfl
    · exact hok.2 hfrees.leased
  obtain ⟨acked, hlast, hforce⟩ := hm
  obtain ⟨acked', hlast', hforce'⟩ := hm'
  obtain ⟨hreg, hinv⟩ := hbacked m
  obtain ⟨x, hget, haddr, hown⟩ := (hinv a acked hlast hforce).get hforce
  obtain ⟨y, hget', haddr', hown'⟩ := ((hbacked m').2 a acked' hlast' hforce').get hforce'
  have hxy : x = y := (hreg.offsets.of_get hget).eq_of_ipAdd (hreg.offsets.of_get hget')
    (haddr.trans haddr'.symm)
  rw [hxy] at hown
  exact Option.some.inj (hown.symm.trans hown')

/-- An offer expires and is purged, the client is offered the address once more, and the sleeping
free fires on the open offer; then two clients lease two addresses. -/
theorem no_double_lease_sample : ∃ w, World.RunsTo (fun w e => (e.Ordinary ∧ e.Silent) ∧
      ¬ w.FreesLeased e) (Sample.scope [] []) Sample.network none 0 w ∧
    w.InForce "02:00:00:00:00:01" 0x0a00000a#32 ∧ w.InForce "02:00:00:00:00:02" 0x0a00000b#32 ∧
    ∀ m, w.InForce m 0x0a00000a#32 → m = "02:00:00:00:00:01" := by
  let first := Sample.send [2, 0, 0, 0, 0, 1]
  let other := Sample.send [2, 0, 0, 0, 0, 2]
  have hall : ∀ e ∈ [first 1 none .discover, .tick 10000000001, .purge, .tick 29000000000,
      first 2 (some 0x0a00000a#32) .discover, .tick 1000000000, .fire 0, .tick 10000000000,
      first 3 (some 0x0a00000a#32) .discover, first 3 (some 0x0a00000a#32) .request,
      other 4 none .discover, other 4 (some 0x0a00000b#32) .request],
      e.Ordinary ∧ e.Silent := by
    intro e he
    refine ⟨?_, ?_⟩
    · revert e
      decide +kernel
    · revert e
      simp [first, other, Event.Silent, Sample.send, Sample.silent_env]
  obtain ⟨w, hrun, hp⟩ := Sample.exists_runsTo (Sample.scope [] [])
    (fun w e => ¬ w.FreesLeased e) _
    (fun w => decide (w.InForce "02:00:00:00:00:01" 0x0a00000a#32) &&
      decide (w.InForce "02:00:00:00:00:02" 0x0a00000b#32)) hall (by decide +kernel)
  simp only [Bool.and_eq_true, decide_eq_true_eq] at hp
  exact ⟨w, hrun, hp.1, hp.2, fun m hm => no_double_lease rfl hrun hm hp.1⟩

/-- The first offer to `02:…:01` expires and is purged, which starts a free in 30 seconds. The
client comes back, gets the same address and an ACK; then the free fires. -/
def doubleLeaseRun : List Event :=
  let a : IPv4 := 0x0a00000a#32
  let first : Bytes := [2, 0, 0, 0, 0, 1]
  let other : Bytes := [2, 0, 0, 0, 0, 2]
  [Sample.send first 1 (some a) .discover, .tick 10000000001, .purge, .tick 5000000000,
    Sample.send first 2 (some a) .discover, Sample.send first 2 (some a) .request,
    .tick 30000000000, .fire 0,
    Sample.send other 3 (some a) .discover, Sample.send other 3 (some a) .request]

theorem doubleLeaseRun_allowed : ∀ e ∈ doubleLeaseRun, e.Ordinary ∧ e.Silent := by
  intro e he
  refine ⟨?_, ?_⟩
  · revert e
    decide +kernel
  · revert e
    simp [doubleLeaseRun, Event.Silent, Sample.send, Sample.silent_env]

theorem two_leases_on_one_address : ¬ ∀ (cfg : ScopeConfig) (network : IPNet)
    (ipv4 : Option IPv4) (now : Int) (w : World), cfg.ipAssigned = [] →
    World.RunsTo (fun _ e => e.Ordinary ∧ e.Silent) cfg network ipv4 now w →
    ∀ m m' a, w.InForce m a → w.InForce m' a → m = m' := by
  intro hclaim
  obtain ⟨w, hrun, hp⟩ := Sample.exists_run (Sample.scope [] []) doubleLeaseRun
    (fun w => decide (w.InForce "02:00:00:00:00:01" 0x0a00000a#32) &&
      decide (w.InForce "02:00:00:00:00:02" 0x0a00000a#32))
    doubleLeaseRun_allowed (by decide +kernel)
  simp only [Bool.and_eq_true, decide_eq_true_eq] at hp
  have hsame := hclaim (Sample.scope [] []) Sample.network none 0 w rfl hrun _ _ _ hp.1 hp.2
  exact absurd hsame (by decide)

end StandaloneDHCP
