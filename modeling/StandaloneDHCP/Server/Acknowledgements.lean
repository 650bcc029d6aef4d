import StandaloneDHCP.Server.HandlerRun

/-! What an ACK says about the pool. The REQUEST and INFORM cases acknowledge an address only
after the range test, the cache and the pool's owner field agree on it; the ACK branch then
writes the same index to both. A NAK and a dropped request leave the pool alone. -/
namespace StandaloneDHCP
open Lib
set_option autoImplicit false

theorem validAddress_eq_some {reqIP : Bytes} {a : IPv4} (h : validAddress reqIP = some a) :
    reqIP = beBytes a := by
  unfold validAddress at h
  split at h
  · next hlen =>
    cases hread : beUint32 reqIP with
    | none => simp [hread] at h
    | some b =>
      simp only [hread] at h
      split at h
      · cases h
      · cases h
        exact eq_beBytes hlen hread
  · cases h

variable {env : Env} {now : Int} {p : Packet} {t : MessageType} {g g' : Globals}
  {h h' : DHCPHandler} {addr : IPv4}

theorem judge_ack_inside {index : Int} (hj : judge now g h p t addr = (.ack index, g', h')) :
    0 ≤ ipRange h.start addr - 1 ∧ ipRange h.start addr - 1 < h.leaseRange := by
  unfold judge at hj
  simp only at hj
  split at hj
  · next hin => exact hin
  · cases hj

theorem serveRequest_acked {networkIP : String} {answer answer' : Answer}
    (hnone : answer.d = none)
    (hr : serveRequest env now g h networkIP p t answer = (g', h', answer'))
    (hack : answer'.acked = some addr) :
    p.reqIP = beBytes addr ∧
      0 ≤ ipRange h.start addr - 1 ∧ ipRange h.start addr - 1 < h.leaseRange := by
  unfold serveRequest at hr
  split at hr
  · cases hr
    cases hack
  simp only at hr
  have hsilent : ({ answer with ip := p.reqIP } : Answer).acked = none := (Answer.silent hnone).1
  cases hvalid : validAddress p.reqIP with
  | none =>
    rw [hvalid] at hr
    cases hr
    cases hack
  | some a =>
    rw [hvalid] at hr
    rcases hj : judge now g h p t a with ⟨v, g₁, h₁⟩
    simp only [hj] at hr
    cases v with
    | unknown =>
      cases hr
      cases hack
    | duplicate =>
      cases hr
      cases hsilent.symm.trans hack
    | nak =>
      cases hr
      cases hack
    | ack index =>
      simp only [acknowledge] at hr
      split at hr
      · cases hr
        cases hsilent.symm.trans hack
      · cases hr
        cases hack
        exact ⟨validAddress_eq_some hvalid, judge_ack_inside hj⟩

theorem Requested.pool_of_not_acked {answer : Answer} (hr : Requested now p h h' answer)
    (hack : answer.acked = none) : h'.available = h.available := by
  cases hr with
  | unchanged => rfl
  | dropped => exact h.evict_available now p.clientMac
  | renewed _ _ _ _ _ hacked => cases hack.symm.trans hacked
  | pinned _ _ _ hacked => cases hack.symm.trans hacked

/-- `reserve` of an index that is the client's, or that is free and reads as the client's because
the client carries the free MAC, makes the client its owner. -/
theorem lookup_reserve_own (hs : h.Sound) {mac : String} {i : ℕ}
    (hlt : i < h.available.capacity) (hown : h.ownerOf i = mac) :
    (h.reserve i mac).available.mac.lookup i = some mac := by
  unfold DHCPHandler.reserve
  rw [safeIntToUint64_natCast]
  by_cases hfree : i ∈ h.available.free
  · rw [DHCPPool.reserveIPIndex, if_neg (by omega), if_pos hfree]
    exact Finmap.lookup_insert _
  · rw [DHCPPool.reserveIPIndex, if_neg (by omega), if_neg hfree]
    obtain ⟨o, ho⟩ := hs.pool.exists_owner hlt hfree
    rw [← safeIntToUint64_natCast i] at ho
    rw [hs.ownerOf_of_lookup ho] at hown
    rwa [hown, safeIntToUint64_natCast] at ho

theorem reserve_sameExcept (h : DHCPHandler) (i : ℕ) (mac : String) :
    DHCPPool.SameExcept i h.available (h.reserve i mac).available := by
  obtain ⟨-, heq⟩ | ⟨-, heq⟩ := h.reserve_cases i mac
  · rw [heq, safeIntToUint64_natCast]
    exact DHCPPool.sameExcept_grant h.available i mac
  · rw [heq]
    exact ⟨rfl, rfl, fun j _ => ⟨Iff.rfl, rfl, rfl⟩⟩

/-- What an ACK of `a` to the client of `p` leaves behind. -/
structure Confirmed (now : Int) (p : Packet) (a : IPv4) (h h' : DHCPHandler) (i : ℕ) : Prop where
  asked : p.reqIP = beBytes a
  cached : h.hwcache.get now p.clientMac = some (i : Int)
  address : a = ipAdd h.start i
  owner : h'.available.mac.lookup i = some p.clientMac
  entry : h'.hwcache.peek p.clientMac =
    some ⟨i, h.hwcache.deadline now (h.leaseDuration + 15 * second)⟩
  others : ∀ j, j ≠ i → (j ∈ h'.available.free ↔ j ∈ h.available.free) ∧
    h'.available.mac.lookup j = h.available.mac.lookup j

theorem serveRequest_confirmed {networkIP : String} {answer answer' : Answer} (hs : h.Sound)
    (hoff : ∀ m e, h.hwcache.peek m = some e → IsOffset e.object)
    (hdyn : h.ipAssigned.lookup p.clientMac = none) (hnone : answer.d = none)
    (hr : serveRequest env now g h networkIP p t answer = (g', h', answer'))
    (hack : answer'.acked = some addr) :
    ∃ i < h.available.capacity, Confirmed now p addr h h' i := by
  obtain ⟨hreq, hlo, hhi⟩ := serveRequest_acked hnone hr hack
  have hspec := serveRequest_spec hnone hr
  cases hspec with
  | unchanged _ hno => cases hno.symm.trans hack
  | dropped _ hno => cases hno.symm.trans hack
  | pinned _ position hstat => cases hdyn.symm.trans hstat
  | renewed _ index _ hget hown hacked =>
    have haddr := Option.some.inj (hack.symm.trans hacked)
    have hindex : IsOffset index := by
      obtain ⟨e, he, -, rfl⟩ := Cache.get_eq_some.mp hget
      exact hoff _ e he
    obtain ⟨i, rfl⟩ := Int.eq_ofNat_of_zero_le hindex.1
    have hlt : i < h.available.capacity := by
      -- the address is in the range, and `IPAdd` does not wrap below it
      have hi := hindex.2
      have hrange := hs.range
      have hfits := hs.fits
      have hstart := h.start.isLt
      have hval := congrArg BitVec.toNat haddr
      rw [ipAdd_toNat] at hval
      unfold ipRange at hlo hhi
      omega
    refine ⟨i, hlt, hreq, hget, haddr, ?_, Cache.peek_set _ _ _ _ _, ?_⟩
    · have hs' : (h.lock now p.clientMac i (h.leaseDuration + 15 * second)).Sound :=
        ⟨hs.pool, hs.range, hs.fits⟩
      exact lookup_reserve_own hs' hlt hown
    · intro j hj
      have hsame := (reserve_sameExcept
        (h.lock now p.clientMac i (h.leaseDuration + 15 * second)) i p.clientMac).2.2 j hj
      exact ⟨hsame.1, hsame.2.1⟩

theorem World.serve_request (w : World) (p : Packet) (htype : t = .request ∨ t = .inform)
    (env : Env) (fuel : ℕ) :
    (∃ answer : Answer, answer.d = none ∧
      w.serve p t env fuel = some (w.globals, w.handler, answer)) ∨
    ∃ (g : Globals) (answer : Answer), answer.d = none ∧
      w.serve p t env fuel =
        some (serveRequest env w.now g w.handler w.network.network.text p t answer) := by
  unfold World.serve
  simp only
  split
  · unfold serveHandler
    split
    · exact .inl ⟨_, rfl, rfl⟩
    · obtain rfl | rfl := htype
      · exact .inr ⟨_, _, rfl, rfl⟩
      · exact .inr ⟨_, _, rfl, rfl⟩
  · exact .inl ⟨_, rfl, rfl⟩

/-- A REQUEST or INFORM of a client without a static address, in any state whose pool is in order
and covers `start..dhcpEnd`. -/
theorem ack_matches_pool {w : World} {dhcpEnd : IPv4}
    (hpool : w.handler.available.WellFormed)
    (hcap : w.handler.leaseRange = w.handler.available.capacity)
    (hrange : w.handler.leaseRange = ipRange w.handler.start dhcpEnd)
    (hoff : ∀ m e, w.handler.hwcache.peek m = some e → 0 ≤ e.object ∧ e.object < 2 ^ 32)
    {p : Packet} (htype : t = .request ∨ t = .inform)
    (hdyn : w.handler.ipAssigned.lookup p.clientMac = none) (env : Env) (fuel : ℕ) :
    ∃ g h answer, w.serve p t env fuel = some (g, h, answer) ∧
      (∀ a, answer.acked = some a →
        (w.handler.start.toNat ≤ a.toNat ∧ a.toNat ≤ dhcpEnd.toNat) ∧
        ∃ i, Confirmed w.now p a w.handler h i) ∧
      (answer.acked = none → h.available = w.handler.available) := by
  have hend := dhcpEnd.isLt
  have hs : w.handler.Sound := by
    refine ⟨hpool, hcap, ?_⟩
    unfold ipRange at hrange
    omega
  obtain ⟨answer, hnone, hserve⟩ | ⟨g, answer, hnone, hserve⟩ := w.serve_request p htype env fuel
  · refine ⟨_, _, _, hserve, fun a ha => ?_, fun _ => rfl⟩
    cases (Answer.silent hnone).1.symm.trans ha
  · rcases hr : serveRequest env w.now g w.handler w.network.network.text p t answer with
      ⟨g', h', answer'⟩
    rw [hr] at hserve
    refine ⟨g', h', answer', hserve, fun a ha => ?_, ?_⟩
    · obtain ⟨i, -, hconf⟩ := serveRequest_confirmed hs hoff hdyn hnone hr ha
      obtain ⟨-, hlo, hhi⟩ := serveRequest_acked hnone hr ha
      unfold ipRange at hrange hlo hhi
      exact ⟨by omega, i, hconf⟩
    · exact (serveRequest_spec hnone hr).pool_of_not_acked

/-- `02:…:01` was offered 10.0.0.10 and requests it. -/
theorem ack_matches_pool_sample : ∃ w g h answer,
    World.RunsTo (fun _ _ => True) (Sample.scope [] []) Sample.network none 0 w ∧
    w.serve (Sample.packet [2, 0, 0, 0, 0, 1] 2 (some 0x0a00000a#32)) .request (Sample.env []) 3 =
      some (g, h, answer) ∧ answer.acked = some 0x0a00000a#32 ∧
    ∃ i, Confirmed w.now (Sample.packet [2, 0, 0, 0, 0, 1] 2 (some 0x0a00000a#32)) 0x0a00000a#32
      w.handler h i := by
  obtain ⟨w, hrun, hp⟩ := Sample.exists_run (Sample.scope [] [])
    [Sample.send [2, 0, 0, 0, 0, 1] 1 none .discover]
    (fun w => decide (w.handler.ipAssigned.lookup "02:00:00:00:00:01" = none) &&
      ((w.serve (Sample.packet [2, 0, 0, 0, 0, 1] 2 (some 0x0a00000a#32)) .request
        (Sample.env []) 3).map fun r => r.2.2.acked) == some (some 0x0a00000a#32))
    (fun _ _ => trivial) (by decide +kernel)
  simp only [Bool.and_eq_true, decide_eq_true_eq, beq_iff_eq, Option.map_eq_some_iff] at hp
  obtain ⟨hdyn, ⟨g, h, answer⟩, hserve, hack⟩ := hp
  have hmac : (Sample.packet [2, 0, 0, 0, 0, 1] 2 (some 0x0a00000a#32)).clientMac =
      "02:00:00:00:00:01" := by decide +kernel
  have hreg := World.RunsTo.regular hrun
  have hrange : w.handler.leaseRange = ipRange w.handler.start 0x0a00000c#32 := by
    rw [DHCPHandler.leaseRange_of_settings hreg.settings, hreg.start]
    rfl
  obtain ⟨g', h', answer', hserve', hacked, -⟩ := ack_matches_pool hreg.sound.pool
    hreg.sound.range hrange hreg.offsets.cached
    (p := Sample.packet [2, 0, 0, 0, 0, 1] 2 (some 0x0a00000a#32)) (.inl rfl)
    (by rw [hmac]; exact hdyn) (Sample.env []) 3
  cases hserve.symm.trans hserve'
  exact ⟨w, g, h, answer, hrun, hserve, hack, (hacked _ hack).2⟩

end StandaloneDHCP
