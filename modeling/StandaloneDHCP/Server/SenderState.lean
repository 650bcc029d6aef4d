import StandaloneDHCP.Server.HandlerRun

/-! What a packet may touch. `Touches` follows the code function by function and asks nothing of
the handler but a pool in order: an index that is not free stays as it is, a new owner is the
sender or the sentinel of a conflict, and the entries of other clients and other transactions are
left alone. -/
namespace StandaloneDHCP
open Lib
set_option autoImplicit false

structure Touches (p : Packet) (h h' : DHCPHandler) : Prop where
  wellFormed : h.available.WellFormed → h'.available.WellFormed
  free : h'.available.free ⊆ h.available.free
  kept : ∀ i, i ∉ h.available.free → h'.available.mac.lookup i = h.available.mac.lookup i
  granted : ∀ i, i ∈ h.available.free → i ∉ h'.available.free →
    h'.available.mac.lookup i = some p.clientMac ∨ h'.available.mac.lookup i = some FakeMac
  others : ∀ m, m ≠ p.clientMac → h'.hwcache.peek m = h.hwcache.peek m
  marks : ∀ k, k ≠ hexString (beBytes p.xid) → h'.xid.peek k = h.xid.peek k

namespace Touches
variable {p : Packet} {h h₁ h₂ : DHCPHandler}

theorem refl (p : Packet) (h : DHCPHandler) : Touches p h h where
  wellFormed := id
  free := Finset.Subset.refl _
  kept := fun _ _ => rfl
  granted := fun _ hi hno => absurd hi hno
  others := fun _ _ => rfl
  marks := fun _ _ => rfl

theorem trans (hfst : Touches p h h₁) (hsnd : Touches p h₁ h₂) : Touches p h h₂ where
  wellFormed := fun hwf => hsnd.wellFormed (hfst.wellFormed hwf)
  free := hsnd.free.trans hfst.free
  kept := by
    intro i hi
    have hi₁ : i ∉ h₁.available.free := fun hmem => hi (hfst.free hmem)
    exact (hsnd.kept i hi₁).trans (hfst.kept i hi)
  granted := by
    intro i hi hno
    by_cases hi₁ : i ∈ h₁.available.free
    · exact hsnd.granted i hi₁ hno
    · rw [hsnd.kept i hi₁]
      exact hfst.granted i hi hi₁
  others := fun m hm => (hsnd.others m hm).trans (hfst.others m hm)
  marks := fun k hk => (hsnd.marks k hk).trans (hfst.marks k hk)

/-! ## The operations of the handler -/

theorem grant {i : ℕ} (hfree : i ∈ h.available.free) {m : String}
    (hm : m = p.clientMac ∨ m = FakeMac) :
    Touches p h { h with available := h.available.grant i m } where
  wellFormed := fun hwf => hwf.grant hfree m
  free := Finset.erase_subset i _
  kept := by
    intro j hj
    have hne : j ≠ i := fun he => hj (he ▸ hfree)
    exact Finmap.lookup_insert_of_ne _ hne
  granted := by
    intro j hj hno
    have hji : j = i := by
      by_contra hne
      exact hno (Finset.mem_erase.mpr ⟨hne, hj⟩)
    subst hji
    have hown : (h.available.grant j m).mac.lookup j = some m := Finmap.lookup_insert _
    rw [hown]
    exact hm.imp (congrArg some) (congrArg some)
  others := fun _ _ => rfl
  marks := fun _ _ => rfl

theorem reserve (p : Packet) (h : DHCPHandler) (index : Int) {m : String}
    (hm : m = p.clientMac ∨ m = FakeMac) : Touches p h (h.reserve index m) := by
  obtain ⟨hfree, heq⟩ | ⟨-, heq⟩ := h.reserve_cases index m
  · rw [heq]
    exact grant hfree hm
  · rw [heq]
    exact refl p h

theorem hwcache {c : Cache String Int}
    (hc : ∀ m, m ≠ p.clientMac → c.peek m = h.hwcache.peek m) (l : List Task) :
    Touches p h { h with hwcache := c, tasks := l } where
  wellFormed := id
  free := Finset.Subset.refl _
  kept := fun _ _ => rfl
  granted := fun _ hi hno => absurd hi hno
  others := hc
  marks := fun _ _ => rfl

theorem lock (p : Packet) (h : DHCPHandler) (now index d : Int) :
    Touches p h (h.lock now p.clientMac index d) :=
  hwcache (fun _ hm => h.peek_lock_ne now index d hm) h.tasks

theorem evict (p : Packet) (h : DHCPHandler) (now : Int) :
    Touches p h (h.evict now p.clientMac) := by
  rw [DHCPHandler.evict_eq]
  exact hwcache (fun _ hm => Cache.peek_delete_ne _ hm) _

theorem quarantine (p : Packet) (h : DHCPHandler) (now index : Int) :
    Touches p h (h.quarantine now index) :=
  (reserve p h index (.inr rfl)).trans (hwcache (fun _ _ => rfl) _)

theorem xid {c : Cache String Int}
    (hc : ∀ k, k ≠ hexString (beBytes p.xid) → c.peek k = h.xid.peek k) :
    Touches p h { h with xid := c } where
  wellFormed := id
  free := Finset.Subset.refl _
  kept := fun _ _ => rfl
  granted := fun _ hi hno => absurd hi hno
  others := fun _ _ => rfl
  marks := hc

theorem setXid (p : Packet) (h : DHCPHandler) (now : Int) : Touches p h (h.setXid now p) :=
  xid fun _ hk => Cache.peek_set_ne _ _ _ _ hk

theorem replaceXid (p : Packet) (h : DHCPHandler) (now : Int) :
    Touches p h (h.replaceXid now p) := by
  refine xid fun k hk => ?_
  cases hrep : h.xid.replace now (hexString (beBytes p.xid)) 1 (5 * second) with
  | none => rfl
  | some c =>
    obtain ⟨-, rfl⟩ := Cache.replace_eq_some.mp hrep
    exact Cache.peek_set_ne _ _ _ _ hk

end Touches

/-! ## The message switch -/

section Switch
variable {env : Env} {now : Int} {p : Packet} {t : MessageType} {h h' : DHCPHandler}

theorem tryRequested_touches {firstTry : Bool} {free free' : Int} {available : DHCPPool}
    (htry : tryRequested h p firstTry free = .candidate available free') :
    Touches p h { h with available := available } := by
  cases firstTry with
  | false =>
    rw [tryRequested_later] at htry
    cases htry
    exact .refl p h
  | true =>
    obtain ⟨-, heq | heq⟩ | ⟨i, -, ⟨-, heq⟩ | ⟨-, hfree, heq⟩ | ⟨-, heq⟩ | ⟨-, heq⟩⟩ :=
      tryRequested_first h p free
    · cases heq.symm.trans htry
    · cases heq.symm.trans htry
      exact .refl p h
    · cases heq.symm.trans htry
      exact .refl p h
    · cases heq.symm.trans htry
      exact .grant hfree (.inl rfl)
    · cases heq.symm.trans htry
      exact .refl p h
    · cases heq.symm.trans htry

theorem grabNext_touches (hwf : h.available.WellFormed) {choice : Choice} {free free' : Int}
    {available : DHCPPool}
    (hgrab : grabNext h.available choice p.clientMac free = some (available, free')) :
    Touches p h { h with available := available } := by
  unfold grabNext at hgrab
  split at hgrab
  · by_cases hcard : h.available.free.card = 0
    · rw [DHCPPool.getFreeIPIndex_full choice p.clientMac hcard] at hgrab
      cases hgrab
    · obtain ⟨i, hfree, heq⟩ := DHCPPool.getFreeIPIndex_ok hwf choice p.clientMac hcard
      rw [heq] at hgrab
      cases hgrab
      exact .grant hfree (.inl rfl)
  · cases hgrab
    exact .refl p h

theorem retry_touches (fuel : ℕ) : ∀ (round : ℕ) (firstTry : Bool) (free : Int)
    (h h' : DHCPHandler) (out : Option Int), h.available.WellFormed →
    retry env now p fuel round firstTry free h = some (h', out) → Touches p h h' := by
  induction fuel with
  | zero =>
    intro round firstTry free h h' out _ hr
    simp [retry] at hr
  | succ fuel ih =>
    intro round firstTry free h h' out hwf hr
    rw [retry] at hr
    split at hr
    · cases hr
      exact .refl p h
    cases htry : tryRequested h p firstTry free with
    | panicked =>
      rw [htry] at hr
      cases hr
      exact .refl p h
    | taken =>
      rw [htry] at hr
      exact ih _ _ _ _ _ _ hwf hr
    | candidate available free' =>
      rw [htry] at hr
      have hasked := tryRequested_touches htry
      cases hgrab : grabNext available (env.choice round) p.clientMac free' with
      | none =>
        simp only [hgrab] at hr
        cases hr
        exact hasked
      | some r =>
        obtain ⟨available', index⟩ := r
        simp only [hgrab] at hr
        have hgrabbed := hasked.trans (grabNext_touches (hasked.wellFormed hwf) hgrab)
        have hlocked := (hgrabbed.trans (.lock p _ now index (5 * second))).trans (.setXid p _ now)
        split at hr
        · -- a conflict: the index goes to the sentinel and the block starts over
          have hnext := (hlocked.trans (.evict p _ now)).trans (.quarantine p _ now index)
          exact hnext.trans (ih _ _ _ _ _ _ (hnext.wellFormed hwf) hr)
        · cases hr
          exact (hlocked.trans (.lock p _ now index (5 * second))).trans (.replaceXid p _ now)

variable {fuel : ℕ} {networkIP : String} {answer answer' : Answer}

theorem allocate_touches (hwf : h.available.WellFormed)
    (hr : allocate env fuel now h networkIP p answer = some (h', answer')) : Touches p h h' := by
  obtain ⟨⟨h₁, out⟩, hretry, heq⟩ := Option.map_eq_some_iff.mp hr
  have htouch := retry_touches fuel _ _ _ _ _ _ hwf hretry
  cases out with
  | none =>
    cases heq
    exact htouch
  | some index =>
    cases heq
    exact htouch

theorem confirm_touches {free : Int}
    (hr : confirm env now h networkIP p answer free = (h', answer')) : Touches p h h' := by
  unfold confirm at hr
  split at hr
  · cases hr
    exact .refl p h
  · next c hrep =>
    obtain ⟨-, rfl⟩ := Cache.replace_eq_some.mp hrep
    cases hr
    exact .lock p h now free (5 * second)

theorem serveDiscover_touches (hwf : h.available.WellFormed)
    (hr : serveDiscover env fuel now h networkIP p answer = some (h', answer')) :
    Touches p h h' := by
  unfold serveDiscover at hr
  split at hr
  · cases hr
    exact .refl p h
  split at hr
  · exact allocate_touches hwf hr
  · next x _ =>
    split at hr
    · exact confirm_touches (Option.some.inj hr)
    split at hr
    · -- the entry leaves and its index is reserved again
      have hregain := (Touches.evict p h now).trans
        (Touches.reserve p (h.evict now p.clientMac) x (.inl rfl))
      dsimp only at hr
      split at hr
      · exact hregain.trans (confirm_touches (Option.some.inj hr))
      · exact hregain.trans (allocate_touches (hregain.wellFormed hwf) hr)
    · exact allocate_touches hwf hr

theorem Requested.touches (hr : Requested now p h h' answer) : Touches p h h' := by
  cases hr with
  | unchanged => exact .refl p h
  | dropped => exact .evict p h now
  | renewed _ index =>
    exact (Touches.lock p h now index _).trans (.reserve p _ index (.inl rfl))
  | pinned _ position =>
    exact (Touches.lock p h now position.toNat _).trans (.reserve p _ _ (.inl rfl))

theorem retire_touches (now : Int) (h : DHCPHandler) (p : Packet) :
    Touches p h (retire now h p) := by
  obtain heq | ⟨x, -, -, heq⟩ := retire_cases now h p
  · rw [heq]
    exact .refl p h
  · rw [heq]
    exact (Touches.quarantine p h now x).trans (.evict p _ now)

theorem serveMessage_touches {g g' : Globals} (hwf : h.available.WellFormed)
    (hnone : answer.d = none)
    (hr : serveMessage env fuel now g h networkIP p t answer = some (g', h', answer')) :
    Touches p h h' := by
  cases t with
  | discover =>
    simp only [serveMessage, Option.map_eq_some_iff] at hr
    obtain ⟨r, hd, heq⟩ := hr
    cases heq
    exact serveDiscover_touches hwf hd
  | request => exact (serveRequest_spec hnone (Option.some.inj hr)).touches
  | inform => exact (serveRequest_spec hnone (Option.some.inj hr)).touches
  | release =>
    cases hr
    exact retire_touches now h p
  | decline =>
    cases hr
    exact retire_touches now h p
  | offer =>
    cases hr
    exact .refl p h
  | ack =>
    cases hr
    exact .refl p h
  | nak =>
    cases hr
    exact .refl p h

end Switch

/-! ## Delayed tasks -/

/-- The address that a RELEASE or DECLINE names: option 50, else `ciaddr`. -/
def Packet.namedAddress (p : Packet) : Option IPv4 := (to4 p.reqIP).bind beUint32

/-- The index that a RELEASE or DECLINE gives back: cached for the sender, owned by the sender in
the pool, and the index of the named address. -/
structure Retires (now : Int) (p : Packet) (h : DHCPHandler) (index : Int) : Prop where
  cached : h.hwcache.get now p.clientMac = some index
  owned : ∃ i : ℕ, index = i ∧ h.available.mac.lookup i = some p.clientMac
  named : p.namedAddress = some (ipAdd h.start index)

theorem retire_tasks {now : Int} {p : Packet} {h : DHCPHandler} (hwf : h.available.WellFormed)
    (hmac : p.clientMac ≠ FreeMac) :
    ∃ started, (retire now h p).tasks = h.tasks ++ started ∧
      ∀ task ∈ started, Retires now p h task.index := by
  have hnone : ∃ started, h.tasks = h.tasks ++ started ∧
      ∀ task ∈ started, Retires now p h task.index :=
    ⟨[], (List.append_nil _).symm, fun _ htask => by cases htask⟩
  unfold retire
  cases hnamed : (to4 p.reqIP).bind beUint32 with
  | none => exact hnone
  | some addr =>
    dsimp only
    split
    · next hrange =>
      cases hget : h.hwcache.get now p.clientMac with
      | none => exact hnone
      | some x =>
        by_cases hcond : ipRange h.start addr - 1 = x ∧ h.ownerOf x = p.clientMac
        · simp only [if_pos hcond, DHCPHandler.evict_tasks, DHCPHandler.quarantine_tasks]
          obtain ⟨rfl, hown⟩ := hcond
          obtain ⟨i, hi⟩ := Int.eq_ofNat_of_zero_le hrange.1
          have hret : Retires now p h (ipRange h.start addr - 1) := by
            refine ⟨hget, ⟨i, hi, ?_⟩, ?_⟩
            · rw [DHCPHandler.ownerOf, hi] at hown
              have howned := DHCPPool.lookup_of_getMACIndex hwf hmac hown
              rwa [safeIntToUint64_natCast] at howned
            · rw [Packet.namedAddress, hnamed, hi, ipAdd_of_ipRange hi]
          refine ⟨_, List.append_assoc _ _ _, fun task htask => ?_⟩
          rcases List.mem_append.mp htask with htask | htask
          · cases List.mem_singleton.mp htask
            exact hret
          · -- the entry that leaves the cache is the one that was just read
            obtain ⟨e, he, rfl⟩ := List.mem_map.mp htask
            have hpeek : h.hwcache.peek p.clientMac = some e := Option.mem_toList.mp he
            obtain ⟨e', he', -, hobj⟩ := Cache.get_eq_some.mp hget
            cases hpeek.symm.trans he'
            show Retires now p h e.object
            rw [hobj]
            exact hret
        · simp only [if_neg hcond]
          exact hnone
    · exact hnone

/-! ## The whole interface -/

/-- The immediate effect of a packet on one handler. -/
structure SenderOnly (now : Int) (p : Packet) (t : MessageType) (h h' : DHCPHandler) : Prop where
  busy : ∀ i, i ∉ h.available.free →
    i ∉ h'.available.free ∧ h'.available.mac.lookup i = h.available.mac.lookup i
  reserved : ∀ i, i ∈ h.available.free → i ∉ h'.available.free →
    h'.available.mac.lookup i = some p.clientMac ∨ h'.available.mac.lookup i = some FakeMac
  others : ∀ m, m ≠ p.clientMac → h'.hwcache.peek m = h.hwcache.peek m
  tasks : p.clientMac ≠ FreeMac → t = .release ∨ t = .decline →
    ∃ started, h'.tasks = h.tasks ++ started ∧ ∀ task ∈ started, Retires now p h task.index

theorem Touches.senderOnly {now : Int} {p : Packet} {t : MessageType} {h h' : DHCPHandler}
    (ht : Touches p h h')
    (htasks : p.clientMac ≠ FreeMac → t = .release ∨ t = .decline →
      ∃ started, h'.tasks = h.tasks ++ started ∧ ∀ task ∈ started, Retires now p h task.index) :
    SenderOnly now p t h h' where
  busy := fun i hi => ⟨fun hmem => hi (ht.free hmem), ht.kept i hi⟩
  reserved := ht.granted
  others := ht.others
  tasks := htasks

theorem SenderOnly.refl (now : Int) (p : Packet) (t : MessageType) (h : DHCPHandler) :
    SenderOnly now p t h h :=
  (Touches.refl p h).senderOnly fun _ _ =>
    ⟨[], (List.append_nil _).symm, fun _ htask => by cases htask⟩

theorem serveHandler_senderOnly {env : Env} {fuel : ℕ} {now : Int} {g g' : Globals}
    {h h' : DHCPHandler} {networkIP : String} {p : Packet} {t : MessageType}
    {answer answer' : Answer} (hwf : h.available.WellFormed) (hnone : answer.d = none)
    (hr : serveHandler env fuel now g h networkIP p t answer = some (g', h', answer')) :
    SenderOnly now p t h h' := by
  unfold serveHandler at hr
  split at hr
  · cases hr
    exact .refl now p t h
  · refine (serveMessage_touches hwf hnone hr).senderOnly fun hmac htype => ?_
    rcases htype with rfl | rfl
    · cases hr
      exact retire_tasks hwf hmac
    · cases hr
      exact retire_tasks hwf hmac

/-- A packet touches only the state of its sender, in every handler of the interface. -/
theorem packet_touches_sender_only {env : Env} {fuel : ℕ} {now : Int} {g g' : Globals}
    {p : Packet} {t : MessageType} {ipv4 : Option IPv4} {answer : Answer}
    {networks networks' : List Network}
    (hwf : ∀ v ∈ networks, v.dhcpHandler.available.WellFormed)
    (hr : serveNetworks env fuel now g p t { mac := p.chaddr, srcIP := ipv4 } networks =
      some (g', networks', answer)) :
    List.Forall₂ (fun v v' => SenderOnly now p t v.dhcpHandler v'.dhcpHandler)
      networks networks' := by
  induction networks generalizing g' networks' answer with
  | nil =>
    cases hr
    exact .nil
  | cons v rest ih =>
    have hsame : List.Forall₂
        (fun v v' => SenderOnly now p t v.dhcpHandler v'.dhcpHandler) rest rest :=
      List.forall₂_same.mpr fun v _ => .refl now p t v.dhcpHandler
    rw [serveNetworks] at hr
    split at hr
    · obtain ⟨⟨g₁, h₁, answer₁⟩, hserve, heq⟩ := Option.map_eq_some_iff.mp hr
      cases heq
      exact .cons (serveHandler_senderOnly (hwf v List.mem_cons_self) rfl hserve) hsame
    · obtain ⟨⟨g₁, rest', answer₁⟩, hserve, heq⟩ := Option.map_eq_some_iff.mp hr
      cases heq
      exact .cons (.refl now p t _)
        (ih (fun v' hv' => hwf v' (List.mem_cons_of_mem v hv')) hserve)

namespace Sample

/-- The asked address 10.0.0.11 answers the ping, so the search falls back to 10.0.0.10. -/
def contested : Option (Globals × List Network × Answer) :=
  serveNetworks (env [0x0a00000b#32]) 3 0 Globals.init
    (packet [2, 0, 0, 0, 0, 1] 1 (some 0x0a00000b#32)) .discover
    { mac := [2, 0, 0, 0, 0, 1], srcIP := none } [⟨network, readConfig (scope [] [])⟩]

end Sample

theorem packet_touches_sender_only_sample :
    ∃ g networks answer, Sample.contested = some (g, networks, answer) ∧
      answer.offered = some 0x0a00000a#32 ∧
      List.Forall₂ (fun v v' : Network => SenderOnly 0 (Sample.packet [2, 0, 0, 0, 0, 1] 1
          (some 0x0a00000b#32)) .discover v.dhcpHandler v'.dhcpHandler)
        [⟨Sample.network, readConfig (Sample.scope [] [])⟩] networks := by
  have hoffer : Sample.contested.map (fun r => r.2.2.offered) = some (some 0x0a00000a#32) := by
    decide +kernel
  obtain ⟨⟨g, networks, answer⟩, hr, hans⟩ := Option.map_eq_some_iff.mp hoffer
  refine ⟨g, networks, answer, hr, hans, packet_touches_sender_only ?_ hr⟩
  intro v hv
  cases List.mem_singleton.mp hv
  exact (readConfig_sound _).pool

end StandaloneDHCP
