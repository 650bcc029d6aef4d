import StandaloneDHCP.Server.SenderState

/-! The transaction marker `handler.xid`. The DISCOVER case writes it under the hex text of the
transaction id, the REQUEST case looks it up under the decimal number. The two texts never agree,
so in no reachable state does the lookup find anything, and the branch that should take the entry
of the client out of the hardware cache is never taken. -/
namespace StandaloneDHCP
open Lib
set_option autoImplicit false

/-! ## The two spellings -/

theorem colon_notMem_decimal (n : ℕ) : ':' ∉ (toString n).toList := by
  rw [Nat.toString_eq_repr, Nat.toList_repr]
  intro hmem
  have hdigit := Nat.isDigit_of_mem_toDigits (by omega) (by omega) hmem
  exact absurd hdigit (by decide)

theorem colon_mem_hexString (x : BitVec 32) : ':' ∈ (hexString (beBytes x)).toList := by
  simp [hexString, beBytes, hexChars]

theorem hexString_ne_decimal (x : BitVec 32) (n : ℕ) : toString n ≠ hexString (beBytes x) := by
  intro heq
  have hmem := colon_mem_hexString x
  rw [← heq] at hmem
  exact colon_notMem_decimal n hmem

/-! ## The markers of a run -/

/-- Every marker stands under the hex text of a transaction id. -/
def HexMarks (h : DHCPHandler) : Prop :=
  ∀ k e, h.xid.peek k = some e → ∃ x, k = hexString (beBytes x)

theorem HexMarks.get_decimal {h : DHCPHandler} (hm : HexMarks h) (now : Int) (n : ℕ) :
    h.xid.get now (toString n) = none := by
  refine Cache.get_eq_none.mpr fun e he => ?_
  obtain ⟨x, hx⟩ := hm _ e he
  exact absurd hx (hexString_ne_decimal x n)

theorem Touches.hexMarks {p : Packet} {h h' : DHCPHandler} (ht : Touches p h h')
    (hm : HexMarks h) : HexMarks h' := by
  intro k e he
  by_cases hk : k = hexString (beBytes p.xid)
  · exact ⟨p.xid, hk⟩
  · rw [ht.marks k hk] at he
    exact hm k e he

namespace World

theorem serve_touches {w : World} {p : Packet} {t : MessageType} {env : Env} {fuel : ℕ}
    {g : Globals} {h : DHCPHandler} {answer : Answer} (hwf : w.handler.available.WellFormed)
    (hserve : w.serve p t env fuel = some (g, h, answer)) : Touches p w.handler h := by
  obtain ⟨-, rfl, -⟩ | ⟨-, hmessage⟩ := serve_message hserve
  · exact .refl p w.handler
  · exact serveMessage_touches hwf rfl hmessage

theorem step_hexMarks {w w' : World} {e : Event} (hwf : w.handler.available.WellFormed)
    (hm : HexMarks w.handler) (hstep : w.step e = some w') : HexMarks w'.handler := by
  cases e with
  | packet p t env fuel =>
    obtain ⟨g, h, answer, hserve, rfl⟩ := step_packet hstep
    exact (serve_touches hwf hserve).hexMarks hm
  | tick d =>
    cases hstep
    exact hm
  | purge =>
    cases hstep
    show HexMarks (w.handler.purge w.now)
    rw [DHCPHandler.purge_eq]
    exact hm
  | fire k =>
    simp only [step] at hstep
    split at hstep
    · split at hstep
      · cases hstep
        exact hm
      · cases hstep
    · cases hstep

theorem runsTo_hexMarks {ok : World → Event → Prop} {cfg : ScopeConfig} {network : IPNet}
    {ipv4 : Option IPv4} {now : Int} {w : World} (hrun : RunsTo ok cfg network ipv4 now w) :
    HexMarks w.handler := by
  have hinv : w.Regular cfg ∧ HexMarks w.handler := by
    refine Reaches.invariant (fun w => w.Regular cfg ∧ HexMarks w.handler) hrun
      ⟨regular_init cfg network ipv4 now, fun k e he => ?_⟩ ?_
    · cases (Cache.peek_empty (4 * second) k).symm.trans he
    · rintro w e w' ⟨hreg, hm⟩ - hstep
      have hst := step_stepped hreg.sound hstep
      exact ⟨hst.regular hreg, step_hexMarks hreg.sound.pool hm hstep⟩
  exact hinv.2

end World

/-! ## The lookup in the REQUEST case -/

section Request
variable {env : Env} {now : Int} {p : Packet} {t : MessageType} {g g' : Globals}
  {h h' : DHCPHandler} (hmark : h.xid.get now (toString p.xid.toNat) = none)
include hmark

theorem judge_unmarked {addr : IPv4} {v : Verdict}
    (hj : judge now g h p t addr = (v, g', h')) : h' = h := by
  unfold judge at hj
  simp only [hmark] at hj
  repeat' split at hj
  all_goals
    cases hj
    rfl

theorem serveRequest_unmarked {networkIP : String} {answer answer' : Answer}
    (hr : serveRequest env now g h networkIP p t answer = (g', h', answer'))
    (hin : (h.hwcache.peek p.clientMac).isSome = true) :
    (h'.hwcache.peek p.clientMac).isSome = true := by
  unfold serveRequest at hr
  split at hr
  · cases hr
    exact hin
  dsimp only at hr
  split at hr
  · cases hr
    exact hin
  split at hr
  · next hj =>
    cases hr
    rw [judge_unmarked hmark hj]
    exact hin
  · next hj =>
    cases hr
    rw [judge_unmarked hmark hj]
    exact hin
  · next hj =>
    cases hr
    rw [judge_unmarked hmark hj]
    exact hin
  · next index g₁ h₁ hj =>
    unfold acknowledge at hr
    split at hr
    · cases hr
      rw [judge_unmarked hmark hj]
      exact hin
    · cases hr
      show ((h₁.lock now p.clientMac index _).hwcache.peek p.clientMac).isSome = true
      rw [DHCPHandler.peek_lock]
      rfl

end Request

/-! ## A REQUEST for another address than the offered one -/

/-- A DISCOVER `p` that is answered with a dynamic OFFER of `a`, and the state `w₂` in which the
same client sends, before the marker expires, the REQUEST `q` of the same transaction for the
address `b` of the pool. -/
structure Exchange (cfg : ScopeConfig) (network : IPNet) (ipv4 : Option IPv4) (now : Int)
    (w₀ w₁ w₂ : World) (p q : Packet) (a b : IPv4) : Prop where
  reached : World.RunsTo (fun _ _ => True) cfg network ipv4 now w₀
  discover : ∃ env fuel, w₀.step (.packet p .discover env fuel) = some w₁
  offered : w₁.log.head?.bind (fun r => r.answer.offered) = some a
  dynamic : w₀.handler.ipAssigned.lookup p.clientMac = none
  later : Reaches World.step (fun _ _ => True) w₁ w₂
  alive : w₂.now ≤ w₁.now + 5 * second
  sender : q.chaddr = p.chaddr
  xid : q.xid = p.xid
  server : namesOtherServer w₂.handler q = false
  asks : q.reqIP = beBytes b
  other : b ≠ a
  inside : 0 ≤ ipRange w₂.handler.start b - 1 ∧
    ipRange w₂.handler.start b - 1 < w₂.handler.leaseRange

/-- What the branch of an address that was not offered is for: a NAK, and the entry of the client
leaves the hardware cache. -/
def World.ClearsEntry (w : World) (q : Packet) (h : DHCPHandler) (answer : Answer) : Prop :=
  answer.isNak = true ∧ (w.handler.hwcache.peek q.clientMac).isSome = true ∧
    h.hwcache.peek q.clientMac = none

theorem World.serve_request_keeps {w : World} {q : Packet} {env : Env} {fuel : ℕ} {g : Globals}
    {h : DHCPHandler} {answer : Answer} (hm : HexMarks w.handler)
    (hserve : w.serve q .request env fuel = some (g, h, answer))
    (hin : (w.handler.hwcache.peek q.clientMac).isSome = true) :
    (h.hwcache.peek q.clientMac).isSome = true := by
  have hmark := hm.get_decimal w.now q.xid.toNat
  obtain ⟨-, rfl, -⟩ | ⟨-, hmessage⟩ := World.serve_message hserve
  · exact hin
  · exact serveRequest_unmarked hmark (Option.some.inj hmessage) hin

/-- The marker written at the OFFER is found at no REQUEST, whatever the transaction id. -/
theorem marker_never_found {cfg : ScopeConfig} {network : IPNet} {ipv4 : Option IPv4} {now : Int}
    {w₀ w₁ w₂ : World} {p q : Packet} {a b : IPv4}
    (hx : Exchange cfg network ipv4 now w₀ w₁ w₂ p q a b) {env : Env} {fuel : ℕ} {g : Globals}
    {h : DHCPHandler} {answer : Answer}
    (hserve : w₂.serve q .request env fuel = some (g, h, answer)) :
    ¬ w₂.ClearsEntry q h answer := by
  obtain ⟨env₁, fuel₁, hstep⟩ := hx.discover
  have hrun : World.RunsTo (fun _ _ => True) cfg network ipv4 now w₂ :=
    (Reaches.next hx.reached trivial hstep).trans hx.later
  rintro ⟨-, hin, hgone⟩
  have hkept := World.serve_request_keeps (World.runsTo_hexMarks hrun) hserve hin
  rw [hgone] at hkept
  cases hkept

namespace Sample

/-- The state after the DISCOVER of `02:…:01`, which is offered 10.0.0.10. -/
def offeredWorld : Option World :=
  (World.init (scope [] []) network none 0).step (send [2, 0, 0, 0, 0, 1] 1 none .discover)

/-- The REQUEST of the same transaction for 10.0.0.11. -/
def otherRequest : Packet := packet [2, 0, 0, 0, 0, 1] 1 (some 0x0a00000b#32)

/-- The REQUEST is refused, and the client still has an entry. -/
def refusedAndKept (w : World) : Bool :=
  (w.log.head?.bind fun r => r.answer.offered) == some 0x0a00000a#32 && w.now == 0 &&
    w.handler.start == 0x0a00000a#32 && w.handler.leaseRange == 3 &&
    ((w.serve otherRequest .request (env []) 3).map fun r =>
      r.2.2.isNak && (r.2.1.hwcache.peek otherRequest.clientMac).isSome) == some true

theorem exists_exchange :
    ∃ w₁, Exchange (scope [] []) network none 0 (World.init (scope [] []) network none 0) w₁ w₁
        (packet [2, 0, 0, 0, 0, 1] 1 none) otherRequest 0x0a00000a#32 0x0a00000b#32 ∧
      ∃ g h answer, w₁.serve otherRequest .request (env []) 3 = some (g, h, answer) ∧
        answer.isNak = true ∧ (h.hwcache.peek otherRequest.clientMac).isSome = true := by
  have hrun : offeredWorld.map refusedAndKept = some true := by decide +kernel
  obtain ⟨w₁, hstep, hw⟩ := Option.map_eq_some_iff.mp hrun
  simp only [refusedAndKept, Bool.and_eq_true, beq_iff_eq] at hw
  obtain ⟨⟨⟨⟨hoffer, hnow⟩, hstart⟩, hrange⟩, hreq⟩ := hw
  obtain ⟨⟨g, h, answer⟩, hserve, hnak⟩ := Option.map_eq_some_iff.mp hreq
  refine ⟨w₁, ?_, g, h, answer, hserve, (Bool.and_eq_true_iff.mp hnak)⟩
  exact
    { reached := .start
      discover := ⟨env [], 3, hstep⟩
      offered := hoffer
      dynamic := by decide +kernel
      later := .start
      alive := by
        rw [hnow]
        decide
      sender := rfl
      xid := rfl
      server := rfl
      asks := rfl
      other := by decide
      inside := by
        rw [hstart, hrange]
        decide }

end Sample

theorem marker_never_found_sample :
    ∃ (w₁ : World) (g : Globals) (h : DHCPHandler) (answer : Answer),
      w₁.serve Sample.otherRequest .request (Sample.env []) 3 = some (g, h, answer) ∧
      ¬ w₁.ClearsEntry Sample.otherRequest h answer := by
  obtain ⟨w₁, hx, g, h, answer, hserve, -, -⟩ := Sample.exists_exchange
  exact ⟨w₁, g, h, answer, hserve, marker_never_found hx hserve⟩

/-- The client asks for 10.0.0.11 after the OFFER of 10.0.0.10: it is refused and keeps its
entry. -/
theorem refused_request_keeps_entry :
    ¬ ∀ (cfg : ScopeConfig) (network : IPNet) (ipv4 : Option IPv4) (now : Int)
        (w₀ w₁ w₂ : World) (p q : Packet) (a b : IPv4) (env : Env) (fuel : ℕ) (g : Globals)
        (h : DHCPHandler) (answer : Answer), Exchange cfg network ipv4 now w₀ w₁ w₂ p q a b →
        w₂.serve q .request env fuel = some (g, h, answer) → w₂.ClearsEntry q h answer := by
  intro hclaim
  obtain ⟨w₁, hx, g, h, answer, hserve, -, hkept⟩ := Sample.exists_exchange
  have hclear := hclaim _ _ _ _ _ _ _ _ _ _ _ _ _ _ _ _ hx hserve
  rw [hclear.2.2] at hkept
  cases hkept

end StandaloneDHCP
