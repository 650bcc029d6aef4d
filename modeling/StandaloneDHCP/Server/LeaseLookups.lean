import StandaloneDHCP.Lib.InverseCaches
import StandaloneDHCP.Server.ServerRun

/-! The two lookups of a lease, by address (`GlobalIpCache`) and by hardware address
(`GlobalMacCache`). An ACK writes both entries with one lifetime and nothing removes either
before it expires: not a RELEASE, not a DECLINE, not the ACK that gives the client another
address or the address another client. So they agree as long as no ACK gives a client another
address, or an address another client, within the lifetime of the entries. -/
namespace StandaloneDHCP
open Lib
set_option autoImplicit false

namespace Server

/-- What GET mac returns, GET ip returns the other way round. -/
def LookupsAgree (s : Server) : Prop :=
  s.globals.globalMacCache.Agree s.now s.globals.globalIpCache

/-- The client is not listed with another address than `asked`, and `asked` not with another
client. -/
def Suits (s : Server) (mac : String) : Option IPv4 → Prop
  | some asked =>
    Cache.Fits s.now s.globals.globalMacCache s.globals.globalIpCache mac (ipString asked)
  | none => True

/-- A REQUEST or INFORM asks for an address that suits the lookups. -/
def Faithful (s : Server) : ServerEvent → Prop
  | .packet _ p t _ _ => t = .request ∨ t = .inform → s.Suits p.clientMac (validAddress p.reqIP)
  | _ => True

instance (s : Server) (mac : String) (asked : Option IPv4) : Decidable (s.Suits mac asked) :=
  match asked with
  | some _ => inferInstanceAs (Decidable (Cache.Fits _ _ _ _ _))
  | none => inferInstanceAs (Decidable True)

instance (s : Server) (e : ServerEvent) : Decidable (s.Faithful e) :=
  match e with
  | .packet _ p t _ _ => inferInstanceAs
      (Decidable (t = .request ∨ t = .inform → s.Suits p.clientMac (validAddress p.reqIP)))
  | .tick _ => inferInstanceAs (Decidable True)
  | .purge _ _ => inferInstanceAs (Decidable True)
  | .fire _ _ _ => inferInstanceAs (Decidable True)
  | .purgeIps => inferInstanceAs (Decidable True)
  | .purgeMacs => inferInstanceAs (Decidable True)
  | .release _ => inferInstanceAs (Decidable True)

theorem acknowledges_packet (s : Server) (i : ℕ) (p : Packet) (t : MessageType) (env : Env)
    (fuel : ℕ) : ((s.serve i p t env fuel).bind fun r => r.2.2.acked).isSome = true ↔
      s.Acknowledges (.packet i p t env fuel) := by
  constructor
  · intro hsome
    obtain ⟨addr, haddr⟩ := Option.isSome_iff_exists.mp hsome
    obtain ⟨⟨g, networks, answer⟩, hserve, hacked⟩ := Option.bind_eq_some_iff.mp haddr
    exact ⟨g, networks, answer, addr, hserve, hacked⟩
  · rintro ⟨g, networks, answer, addr, hserve, hacked⟩
    rw [hserve, Option.bind_some, hacked]
    rfl

instance (s : Server) (e : ServerEvent) : Decidable (s.Acknowledges e) :=
  match e with
  | .packet i p t env fuel => decidable_of_iff _ (acknowledges_packet s i p t env fuel)
  | .tick _ => inferInstanceAs (Decidable False)
  | .purge _ _ => inferInstanceAs (Decidable False)
  | .fire _ _ _ => inferInstanceAs (Decidable False)
  | .purgeIps => inferInstanceAs (Decidable False)
  | .purgeMacs => inferInstanceAs (Decidable False)
  | .release _ => inferInstanceAs (Decidable False)

/-- The lookup caches are inverse to each other. -/
def Paired (s : Server) : Prop :=
  s.globals.globalMacCache.Inverse s.now s.globals.globalIpCache

theorem paired_init (cfg : List (Option IPv4 × List (IPNet × ScopeConfig))) (now : Int) :
    (init cfg now).Paired :=
  Cache.inverse_empty now (5 * minute)

/-- A step without an ACK keeps the caches inverse, whatever it does to the handlers. -/
theorem Paired.step {s s' : Server} (hpaired : s.Paired) {e : ServerEvent}
    (hstep : s.step e = some s') (hack : ¬ s.Acknowledges e) : s'.Paired := by
  unfold Paired
  obtain ⟨hlater, hsame⟩ | ⟨hnow, hips, hmacs⟩ | ⟨hnow, hips, hmacs⟩ | ⟨-, hacked, -⟩ :=
    step_lookups hstep
  · rw [hsame.ips, hsame.macs]
    exact Cache.Inverse.later hpaired hlater
  · rw [hips, hmacs, hnow]
    exact (Cache.Inverse.deleteExpired hpaired.symm).symm
  · rw [hips, hmacs, hnow]
    exact Cache.Inverse.deleteExpired hpaired
  · exact absurd hacked hack

/-- An ACK writes one pair, of the client of the packet and the address that it asks for. -/
theorem step_acknowledges {s s' : Server} {e : ServerEvent} (hstep : s.step e = some s')
    (hack : s.Acknowledges e) :
    ∃ m a lifetime, s.globals.Recorded s.now a m lifetime s'.globals ∧ s'.now = s.now ∧
      (s.Faithful e ↔ Cache.Fits s.now s.globals.globalMacCache s.globals.globalIpCache m a) := by
  cases e with
  | packet i p t env fuel =>
    obtain ⟨g, networks, answer, addr, hserve, hacked⟩ := hack
    obtain ⟨r, hr, rfl⟩ := Option.map_eq_some_iff.mp hstep
    obtain rfl := Option.some.inj (hserve.symm.trans hr)
    obtain ⟨hnone, -⟩ | ⟨addr', lifetime, htype, haddr, -, hrec⟩ := serve_lookups hserve
    · rw [hnone] at hacked
      cases hacked
    · refine ⟨p.clientMac, ipString addr', lifetime, hrec, rfl, ?_, ?_⟩
      · intro hfaithful
        have hsuits := hfaithful htype
        rw [haddr] at hsuits
        exact hsuits
      · intro hfits _
        rw [haddr]
        exact hfits
  | tick | purge | fire | purgeIps | purgeMacs | release => exact hack.elim

theorem Paired.step_faithful {s s' : Server} (hpaired : s.Paired) {e : ServerEvent}
    (hstep : s.step e = some s') (hfaithful : s.Acknowledges e → s.Faithful e) : s'.Paired := by
  by_cases hack : s.Acknowledges e
  · obtain ⟨m, a, lifetime, hrec, hnow, hiff⟩ := step_acknowledges hstep hack
    unfold Paired
    rw [hrec.ips, hrec.macs, hnow]
    exact Cache.Inverse.set hpaired (hiff.mp (hfaithful hack)) lifetime
  · exact hpaired.step hstep hack

/-- The lookups agree along every run in which no ACK gives a client another address, or an
address to another client, within the lifetime of the entries; one ACK against that rule, and
they do not. -/
theorem lookups_agree_iff (cfg : List (Option IPv4 × List (IPNet × ScopeConfig))) (now : Int)
    (s : Server) (hrun : RunsTo (fun s e => s.Acknowledges e → s.Faithful e) cfg now s) :
    s.LookupsAgree ∧ ∀ e s', s.step e = some s' →
      (s'.LookupsAgree ↔ (s.Acknowledges e → s.Faithful e)) := by
  have hpaired : s.Paired :=
    hrun.invariant Paired (paired_init cfg now) fun _ _ _ hp hok hstep =>
      hp.step_faithful hstep hok
  refine ⟨hpaired.agree, fun e s' hstep => ⟨fun hagree hack => ?_, fun hok => ?_⟩⟩
  · obtain ⟨m, a, lifetime, hrec, hnow, hiff⟩ := step_acknowledges hstep hack
    unfold LookupsAgree at hagree
    rw [hrec.ips, hrec.macs, hnow] at hagree
    exact hiff.mpr ((Cache.Inverse.agree_set_iff hpaired m a lifetime).mp hagree)
  · exact (hpaired.step_faithful hstep hok).agree

/-- `02:…:02` asks for the address that `02:…:01` has on lease, and is refused. -/
theorem lookups_agree_iff_leased :
    ∃ s, RunsTo (fun s e => s.Acknowledges e → s.Faithful e) Sample.server 0 s ∧
      s.LookupsAgree ∧
      s.globals.globalMacCache.get s.now "02:00:00:00:00:01" = some "10.0.0.10" := by
  obtain ⟨s, hrun, hleased⟩ := Sample.exists_server_run
    (fun s e => s.Acknowledges e → s.Faithful e)
    [Sample.arrive [2, 0, 0, 0, 0, 1] 1 (some 0x0a00000a#32) .discover,
      Sample.arrive [2, 0, 0, 0, 0, 1] 1 (some 0x0a00000a#32) .request,
      Sample.arrive [2, 0, 0, 0, 0, 2] 2 none .discover,
      Sample.arrive [2, 0, 0, 0, 0, 2] 2 (some 0x0a00000a#32) .request]
    (fun s => s.globals.globalMacCache.get s.now "02:00:00:00:00:01" = some "10.0.0.10")
    (by decide +kernel)
  exact ⟨s, hrun, (lookups_agree_iff Sample.server 0 s hrun).1, of_decide_eq_true hleased⟩

/-- A client that releases its address and gets another one is listed with the new address, and
the old address still with the client. -/
theorem released_address_still_listed : ¬ ∀ (cfg : List (Option IPv4 × List (IPNet × ScopeConfig)))
    (now : Int) (s : Server), RunsTo (fun _ _ => True) cfg now s → s.LookupsAgree := by
  intro hclaim
  obtain ⟨s, hrun, hp⟩ := Sample.exists_server_run (fun _ _ => True)
    [Sample.arrive [2, 0, 0, 0, 0, 1] 1 (some 0x0a00000a#32) .discover,
      Sample.arrive [2, 0, 0, 0, 0, 1] 1 (some 0x0a00000a#32) .request,
      Sample.arrive [2, 0, 0, 0, 0, 1] 2 (some 0x0a00000a#32) .release,
      Sample.arrive [2, 0, 0, 0, 0, 1] 3 (some 0x0a00000b#32) .discover,
      Sample.arrive [2, 0, 0, 0, 0, 1] 3 (some 0x0a00000b#32) .request]
    (fun s => s.globals.globalIpCache.get s.now "10.0.0.10" = some "02:00:00:00:00:01" ∧
      s.globals.globalMacCache.get s.now "02:00:00:00:00:01" = some "10.0.0.11")
    (by decide +kernel)
  obtain ⟨hip, hmac⟩ := of_decide_eq_true hp
  have hback := (hclaim Sample.server 0 s hrun "02:00:00:00:00:01" "10.0.0.10").mpr hip
  rw [hmac] at hback
  revert hback
  decide

end Server
end StandaloneDHCP
