import StandaloneDHCP.Server.Leases
import StandaloneDHCP.Server.NetworkIsolation
import StandaloneDHCP.Server.Offers

/-! A lease in force can be renewed. The entry of the client and the owner that the pool records
for its index last as long as the lease (`LeasesBacked`). What is left between a REQUEST and its
ACK is the second transaction cache, and that one is silent about a packet that has passed the
gate (`Globals.Gated`). -/
namespace StandaloneDHCP
open Lib
set_option autoImplicit false

theorem World.step_gated {w w' : World} {e : Event} (hg : w.globals.Gated w.now)
    (hstep : w.step e = some w') : w'.globals.Gated w'.now := by
  cases e with
  | packet p t env fuel =>
    obtain ⟨g, h, answer, hserve, rfl⟩ := step_packet hstep
    show g.Gated w.now
    unfold serve at hserve
    split_ifs at hserve
    · obtain ⟨rfl, -⟩ | ⟨-, hgated, -⟩ := serveHandler_cases hg hserve
      · exact hg
      · exact hgated
    · cases hserve
      exact hg
  | tick d =>
    cases hstep
    have hle : w.now ≤ w.now + (d : Int) := by omega
    exact hg.later hle
  | purge =>
    cases hstep
    exact hg
  | fire k =>
    simp only [step] at hstep
    split at hstep
    · split_ifs at hstep
      cases hstep
      exact hg
    · cases hstep

theorem World.RunsTo.gated {ok : World → Event → Prop} {cfg : ScopeConfig} {network : IPNet}
    {ipv4 : Option IPv4} {now : Int} {w : World} (hrun : World.RunsTo ok cfg network ipv4 now w) :
    w.globals.Gated w.now :=
  Reaches.invariant (fun w => w.globals.Gated w.now) hrun (Cache.Covers.empty _ _ _)
    fun _ _ _ hg _ hstep => World.step_gated hg hstep

theorem Answer.isNak_of_acked {answer : Answer} {a : IPv4} (hack : answer.acked = some a) :
    answer.isNak = false := by
  unfold acked addressOf at hack
  unfold isNak
  split at hack
  · split_ifs at hack with htype
    rw [htype]
    rfl
  · cases hack

theorem lastAck_renewed {m : String} {a : IPv4} {time : Int} {answer : Answer}
    {log : List Record} (hack : answer.acked = some a) :
    lastAck m a (⟨time, m, .request, answer⟩ :: log) = some time := by
  have hends : (⟨time, m, .request, answer⟩ : Record).ends = false := by
    simp [Record.ends, Answer.isNak_of_acked hack]
  simp only [lastAck, if_true, hends, hack, Bool.false_eq_true, if_false]

/-- After a run in which no sleeping free fires on an address while the client has it on lease, a
REQUEST of the client for the address that it has on lease gets an ACK if it passes the gate, and
the lease then runs for its full time again. The client has no static address and is not
`00:00:00:00:00:00`; the other clients of the run can be any, and pings can be answered. -/
theorem lease_renewable {cfg : ScopeConfig} {network : IPNet} {ipv4 : Option IPv4} {now : Int}
    {w : World} {a : IPv4} {p : Packet}
    (hdyn : (readConfig cfg).ipAssigned.lookup p.clientMac = none) (hmac : p.clientMac ≠ FreeMac)
    (hrun : World.RunsTo (fun w e => ¬ w.FreesLease p.clientMac e) cfg network ipv4 now w)
    (hforce : w.InForce p.clientMac a) (hasks : AsksFor w.handler p a)
    (hadmits : w.Admits p .request) (env : Env) (fuel : ℕ) :
    ∃ w', w.step (.packet p .request env fuel) = some w' ∧
      (∃ r log, w'.log = r :: log ∧ r.answer.acked = some a) ∧
      ∀ d : ℕ, (d : Int) < w.handler.leaseDuration →
        ∃ w'', w'.step (.tick d) = some w'' ∧ w''.InForce p.clientMac a := by
  obtain ⟨hreg, hinv⟩ := leasesBacked_of_run hdyn hrun fun _ _ hfree =>
    ⟨fun hzero => absurd hzero hmac, hfree⟩
  obtain ⟨acked, hlast, hrunning⟩ := hforce
  obtain ⟨x, hget, haddr, hown⟩ := (hinv a acked hlast hrunning).get hrunning
  have hoffset := hreg.offsets.of_get hget
  obtain ⟨i, rfl⟩ := Int.eq_ofNat_of_zero_le hoffset.1
  rw [safeIntToUint64_natCast] at hown
  rw [← haddr] at hasks ⊢
  have hfresh : w.globals.requestGlobalTransactionCache.get w.now (p.cacheKey .request) = none :=
    hrun.gated _ _ (Int.le_refl _) hadmits.2
  have hdyn' : w.handler.ipAssigned.lookup p.clientMac = none := by
    rw [hreg.ipAssigned]
    exact hdyn
  obtain ⟨g, h, answer, hserve, hack⟩ := request_acknowledged hreg.sound hdyn' hget hown hasks
    hadmits hfresh env fuel
  have hduration : h.leaseDuration = w.handler.leaseDuration := by
    obtain ⟨-, rfl, -⟩ | ⟨-, -, hh⟩ := World.serve_cases hreg.sound hserve
    · rfl
    · exact DHCPHandler.leaseDuration_of_settings hh.moves.settings
  refine ⟨w.after p .request g h answer, ?_, ⟨_, _, rfl, hack⟩, fun d hd => ?_⟩
  · rw [World.step, hserve]
    rfl
  · refine ⟨_, rfl, w.now, lastAck_renewed hack, ?_⟩
    show w.now + (d : Int) - w.now < h.leaseDuration
    rw [hduration]
    omega

/-- `02:…:01` leases 10.0.0.10 for an hour and renews it after half an hour. In between a client
with a static address gets it, and 10.0.0.11 answers the ping of another client. -/
theorem lease_renewable_sample : ∃ w w', World.RunsTo
      (fun w e => ¬ w.FreesLease "02:00:00:00:00:01" e)
      (Sample.scope [] [("02:00:00:00:00:02", 0x0a00000c#32)]) Sample.network none 0 w ∧
    w.step (Sample.send [2, 0, 0, 0, 0, 1] 2 (some 0x0a00000a#32) .request) = some w' ∧
    ∃ w'', w'.step (.tick 3500000000000) = some w'' ∧
      w''.InForce "02:00:00:00:00:01" 0x0a00000a#32 := by
  let first := Sample.send [2, 0, 0, 0, 0, 1]
  let static := Sample.send [2, 0, 0, 0, 0, 2]
  let p := Sample.packet [2, 0, 0, 0, 0, 1] 2 (some 0x0a00000a#32)
  let cfg := Sample.scope [] [("02:00:00:00:00:02", 0x0a00000c#32)]
  have hmac : p.clientMac = "02:00:00:00:00:01" := by decide +kernel
  obtain ⟨w, hrun, hp⟩ := Sample.exists_runsTo cfg
    (fun w e => ¬ w.FreesLease "02:00:00:00:00:01" e)
    [first 1 none .discover, first 1 (some 0x0a00000a#32) .request,
      static 3 none .discover, static 3 (some 0x0a00000c#32) .request,
      .packet (Sample.packet [2, 0, 0, 0, 0, 3] 4 none) .discover (Sample.env [0x0a00000b#32]) 3,
      .tick 1800000000000, .purge]
    (fun w => decide (w.InForce p.clientMac 0x0a00000a#32) && decide (w.Admits p .request) &&
      decide (w.handler.leaseDuration = 3600 * second)) (fun _ _ => trivial) (by decide +kernel)
  simp only [Bool.and_eq_true, decide_eq_true_eq] at hp
  obtain ⟨⟨hforce, hadmits⟩, hduration⟩ := hp
  have hrun' := hrun.mono fun _ _ hok => hok.2
  have hasks : AsksFor w.handler p 0x0a00000a#32 := ⟨by decide, .inl rfl, by decide, .inl rfl⟩
  have hdyn : (readConfig cfg).ipAssigned.lookup p.clientMac = none := by decide +kernel
  obtain ⟨w', hstep, -, hlater⟩ := lease_renewable hdyn (by rw [hmac]; decide)
    (by rw [hmac]; exact hrun') hforce hasks hadmits (Sample.env []) 3
  rw [hmac] at hlater
  exact ⟨w, w', hrun', hstep, hlater 3500000000000 (by rw [hduration]; decide)⟩

end StandaloneDHCP
