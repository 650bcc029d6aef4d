import StandaloneDHCP.Server.HandlerRun

/-! Addresses that were declared unusable: after a ping conflict, and after a RELEASE or DECLINE
by their owner. The code reserves the index with `FakeMac` and lets a goroutine free it ten
minutes later, and the index counts as quarantined for as long as that goroutine sleeps. The
reservation has no effect, because the client is still recorded as the owner, so what keeps the
index out of use is only the old reservation. The same handling also takes the entry of the
client out of the hardware cache, whose callback frees the index 30 seconds later. -/
namespace StandaloneDHCP
open Lib
set_option autoImplicit false

/-- A goroutine that ends a quarantine of the index `i` is asleep. -/
def DHCPHandler.Quarantined (h : DHCPHandler) (i : ℕ) : Prop :=
  ∃ task ∈ h.tasks, task.kind = .quarantine ∧ safeIntToUint64 task.index = i

instance (h : DHCPHandler) (i : ℕ) : Decidable (h.Quarantined i) := List.decidableBEx _ _

section Quarantined
variable {h : DHCPHandler} {now : Int} {i : ℕ}

theorem quarantined_append {h' : DHCPHandler} {l : List Task} (hl : h'.tasks = h.tasks ++ l)
    (hkind : ∀ task ∈ l, task.kind = .evicted) : h'.Quarantined i ↔ h.Quarantined i := by
  constructor
  · rintro ⟨task, htask, hq, hi⟩
    rw [hl] at htask
    rcases List.mem_append.mp htask with hold | hnew
    · exact ⟨task, hold, hq, hi⟩
    · cases (hkind task hnew).symm.trans hq
  · rintro ⟨task, htask, hq, hi⟩
    refine ⟨task, ?_, hq, hi⟩
    rw [hl]
    exact List.mem_append_left l htask

theorem quarantined_evict (mac : String) : (h.evict now mac).Quarantined i ↔ h.Quarantined i := by
  refine quarantined_append (h.evict_tasks now mac) ?_
  intro task htask
  obtain ⟨e, -, rfl⟩ := List.mem_map.mp htask
  rfl

theorem quarantined_purge : (h.purge now).Quarantined i ↔ h.Quarantined i := by
  rw [DHCPHandler.purge_eq]
  refine quarantined_append rfl ?_
  intro task htask
  obtain ⟨e, -, rfl⟩ := List.mem_map.mp htask
  rfl

theorem quarantined_quarantine {x : Int} (hq : (h.quarantine now x).Quarantined i) :
    h.Quarantined i ∨ i = safeIntToUint64 x := by
  obtain ⟨task, htask, hkind, rfl⟩ := hq
  rw [DHCPHandler.quarantine_tasks, List.mem_append, List.mem_singleton] at htask
  rcases htask with hold | rfl
  · exact .inl ⟨task, hold, hkind, rfl⟩
  · exact .inr rfl

theorem quarantined_base {h₁ : DHCPHandler} {p : Packet}
    (hbase : h₁ = h ∨ h₁ = h.evict now p.clientMac) : h₁.Quarantined i ↔ h.Quarantined i := by
  obtain rfl | rfl := hbase
  · exact Iff.rfl
  · exact quarantined_evict p.clientMac

end Quarantined

/-! ## What may happen during a quarantine -/

/-- The packet does not come from the free MAC, does not search for an index with a request for
a quarantined address that is still recorded for its client, does not meet a conflict while
index 0 is unusable, and does not come from a client whose static address is quarantined. -/
structure Careful (env : Env) (now : Int) (p : Packet) (t : MessageType) (h : DHCPHandler) :
    Prop where
  ordinary : p.clientMac ≠ FreeMac
  asked : t = .discover → h.Searches now p → h.CanAllot p → ∀ i, requestedIndex h p = some i →
    h.ownerOf i = p.clientMac → ¬ h.Quarantined i
  first : t = .discover → env.Answered →
    ¬ h.Quarantined 0 ∧ ∀ k, env.ping k (ipAdd h.start 0) = false
  static : t = .discover ∨ t = .request ∨ t = .inform →
    ∀ position, h.ipAssigned.lookup p.clientMac = some position → ¬ h.Quarantined position.toNat

/-- A task fires only when no other task ends a quarantine of its index. -/
def World.Careful (w : World) : Event → Prop
  | .packet p t env _ => w.Admits p t → StandaloneDHCP.Careful env w.now p t w.handler
  | .fire k => ∀ task, w.handler.tasks[k]? = some task →
      ∀ task' ∈ w.handler.tasks.eraseIdx k, task'.kind = .quarantine →
        safeIntToUint64 task'.index ≠ safeIntToUint64 task.index
  | _ => True

/-- A quarantined index is not free, and its owner has forgotten it. -/
structure Isolated (h : DHCPHandler) : Prop where
  taken : ∀ i, h.Quarantined i → i ∉ h.available.free
  forgotten : ∀ i, h.Quarantined i → ∀ m e, h.available.mac.lookup i = some m →
    h.hwcache.peek m = some e → safeIntToUint64 e.object ≠ i

theorem Isolated.cached {h : DHCPHandler} (hiso : Isolated h) (hs : h.Sound) {now index : Int}
    {m : String} (hm : m ≠ FreeMac) (hget : h.hwcache.get now m = some index)
    (hown : h.ownerOf index = m) : ¬ h.Quarantined (safeIntToUint64 index) := by
  intro hq
  obtain ⟨e, he, -, rfl⟩ := Cache.get_eq_some.mp hget
  exact hiso.forgotten _ hq m e (hs.lookup_of_ownerOf hm hown) he rfl

/-- What stays true while the packet is handled. -/
structure Respected (env : Env) (p : Packet) (t : MessageType) (h₀ h : DHCPHandler) : Prop
    extends Isolated h where
  settings : h.settings = h₀.settings
  offsets : h.Indexes IsOffset
  first : t = .discover → env.Answered → ¬ h.Quarantined 0
  static : t = .request ∨ t = .inform →
    ∀ position, h.ipAssigned.lookup p.clientMac = some position → ¬ h.Quarantined position.toNat

section Move
variable {env : Env} {now : Int} {p : Packet} {t : MessageType} {h₀ h h' : DHCPHandler}
  (hcare : Careful env now p t h₀) (hresp : Respected env p t h₀ h) (hs : h.Sound)
  (hm : Move env now p t h₀ h h')
include hcare hresp hs hm

theorem Respected.quarantined {i : ℕ} (hq : h'.Quarantined i) :
    h.Quarantined i ∨
      (h.available.mac.lookup i = some p.clientMac ∧ h'.hwcache.peek p.clientMac = none ∧
        ¬ (t = .request ∨ t = .inform) ∧ (t = .discover → i ≠ 0)) := by
  cases hm with
  | evict => exact .inl ((quarantined_evict p.clientMac).mp hq)
  | regain => exact .inl ((quarantined_evict p.clientMac).mp hq)
  | contest k e htype hping hpeek hown =>
    obtain hold | rfl := quarantined_quarantine hq
    · exact .inl ((quarantined_evict p.clientMac).mp hold)
    · have hzero : e.object ≠ 0 := by
        intro hzero
        rw [hzero, DHCPHandler.start_of_settings hresp.settings] at hping
        have hno := (hcare.first htype ⟨k, _, hping⟩).2 k
        cases hno.symm.trans hping
      have hoff := (hresp.offsets.cached _ e hpeek).safeIntToUint64_eq
      refine .inr ⟨hs.lookup_of_ownerOf hcare.ordinary (hown.resolve_right hzero),
        h.peek_evict now p.clientMac, ?_, ?_⟩
      · rintro (ht | ht) <;> cases htype.symm.trans ht
      · intro _ hi
        omega
  | retire x htype hget hown =>
    obtain hold | rfl := quarantined_quarantine ((quarantined_evict p.clientMac).mp hq)
    · exact .inl hold
    · refine .inr ⟨hs.lookup_of_ownerOf hcare.ordinary hown,
        DHCPHandler.peek_evict _ now p.clientMac, ?_, ?_⟩
      · rintro (rfl | rfl) <;> rcases htype with htype | htype <;> cases htype
      · rintro rfl
        rcases htype with htype | htype <;> cases htype
  | _ => exact .inl hq

theorem Respected.entry {e : Item Int} (he : h'.hwcache.peek p.clientMac = some e) :
    (∃ e₀, h.hwcache.peek p.clientMac = some e₀ ∧ e₀.object = e.object) ∨
      ¬ h.Quarantined (safeIntToUint64 e.object) := by
  have hgone (h : DHCPHandler) : (h.evict now p.clientMac).hwcache.peek p.clientMac ≠ some e := by
    rw [DHCPHandler.peek_evict]
    exact nofun
  have hlock (h : DHCPHandler) (index d : Int)
      (hpeek : (h.lock now p.clientMac index d).hwcache.peek p.clientMac = some e) :
      index = e.object := by
    rw [DHCPHandler.peek_lock] at hpeek
    exact congrArg Item.object (Option.some.inj hpeek)
  cases hm with
  | note => exact .inl ⟨e, he, rfl⟩
  | secure => exact .inl ⟨e, he, rfl⟩
  | renew index d _ hget =>
    obtain ⟨e₀, he₀, -, hobj⟩ := Cache.get_eq_some.mp hget
    exact .inl ⟨e₀, he₀, hobj.trans (hlock h index d he)⟩
  | claim i htype _ hreq hown hfirst =>
    rw [← hlock h i _ he, safeIntToUint64_natCast]
    refine .inr fun hq => ?_
    obtain ⟨rfl | rfl, hsearch, hcan⟩ := hfirst
    · exact hcare.asked htype hsearch hcan i hreq hown hq
    · rw [DHCPHandler.evict_eq] at hreq hown
      exact hcare.asked htype hsearch hcan i hreq hown ((quarantined_evict p.clientMac).mp hq)
  | allot i _ _ hfree =>
    rw [← hlock _ i _ he, safeIntToUint64_natCast]
    exact .inr fun hq => hresp.taken i hq hfree
  | fallback htype _ hping =>
    rw [← hlock h 0 _ he]
    exact .inr (hresp.first htype hping)
  | pin position d htype hassigned =>
    rw [← hlock h position.toNat d he, safeIntToUint64_natCast]
    exact .inr (hresp.static htype position hassigned)
  | evict => exact absurd he (hgone h)
  | regain => exact absurd he (hgone h)
  | contest => exact absurd he (hgone h)
  | retire x => exact absurd he (hgone _)

theorem Respected.isolated : Isolated h' := by
  refine ⟨fun i hq hfree => ?_, fun i hq m e howner he heq => ?_⟩
  · obtain hold | ⟨hown, -⟩ := hresp.quarantined hcare hs hm hq
    · exact hresp.taken i hold (hm.free hfree)
    · exact hs.pool.notMem_free hown (hm.free hfree)
  · obtain hold | ⟨hown, hgone, -⟩ := hresp.quarantined hcare hs hm hq
    · -- the owner is an old one, and so is the entry, unless the client just got it
      have hm₀ := (hm.owner_new howner).resolve_right (hresp.taken i hold)
      by_cases hmac : m = p.clientMac
      · subst hmac
        obtain ⟨e₀, he₀, hobj⟩ | hnew := hresp.entry hcare hs hm he
        · exact hresp.forgotten i hold _ e₀ hm₀ he₀ (by rw [hobj, heq])
        · exact hnew (heq ▸ hold)
      · rw [hm.peek_ne hmac] at he
        exact hresp.forgotten i hold m e hm₀ he heq
    · cases howner.symm.trans (hm.owner hs hown)
      cases hgone.symm.trans he

theorem Respected.move : Respected env p t h₀ h' where
  toIsolated := hresp.isolated hcare hs hm
  settings := hm.settings.trans hresp.settings
  offsets := hm.indexes (admissible_isOffset hs) hresp.offsets
  first := by
    intro htype hping hq
    obtain hold | ⟨-, -, -, hne⟩ := hresp.quarantined hcare hs hm hq
    · exact hresp.first htype hping hold
    · exact hne htype rfl
  static := by
    intro htype position hstat hq
    rw [DHCPHandler.ipAssigned_of_settings hm.settings] at hstat
    obtain hold | ⟨-, -, hno, -⟩ := hresp.quarantined hcare hs hm hq
    · exact hresp.static htype position hstat hold
    · exact hno htype

end Move

section Step
variable {h : DHCPHandler} (hiso : Isolated h)
include hiso

theorem Isolated.respected {env : Env} {now : Int} {p : Packet} {t : MessageType}
    {h' : DHCPHandler} (hcare : Careful env now p t h) (hs : h.Sound) (hoff : h.Indexes IsOffset)
    (hm : Moves env now p t h h h') : Respected env p t h h' := by
  refine (hm.invariant (Respected env p t h)
    (fun _ _ hstep hs hresp => hresp.move hcare hs hstep) hs ?_).2
  exact ⟨hiso, rfl, hoff, fun htype hping => (hcare.first htype hping).1,
    fun htype => hcare.static (.inr htype)⟩

theorem Isolated.purge (now : Int) : Isolated (h.purge now) := by
  refine ⟨fun i hq => ?_, fun i hq m e howner he => ?_⟩
  · rw [DHCPHandler.purge_eq]
    exact hiso.taken i (quarantined_purge.mp hq)
  · rw [DHCPHandler.purge_eq] at howner he
    exact hiso.forgotten i (quarantined_purge.mp hq) m e howner (Cache.peek_deleteExpired.mp he).1

theorem Isolated.fire (now : Int) (k : ℕ) (task : Task)
    (hother : ∀ task' ∈ h.tasks.eraseIdx k, task'.kind = .quarantine →
      safeIntToUint64 task'.index ≠ safeIntToUint64 task.index) :
    Isolated (h.fire now k task) := by
  have hold : ∀ i, (h.fire now k task).Quarantined i →
      h.Quarantined i ∧ i ≠ safeIntToUint64 task.index := by
    rintro i ⟨task', htask', hkind, rfl⟩
    exact ⟨⟨task', List.mem_of_mem_eraseIdx htask', hkind, rfl⟩, hother task' htask' hkind⟩
  refine ⟨fun i hq hfree => ?_, fun i hq m e howner he => ?_⟩
  · obtain ⟨hq, hne⟩ := hold i hq
    refine hiso.taken i hq ?_
    obtain ⟨-, -, heq⟩ | heq := h.fire_cases now k task
    · rw [heq] at hfree
      exact ((DHCPPool.sameExcept_giveBack h.available now _).2.2 i hne).1.mp hfree
    · rwa [heq] at hfree
  · obtain ⟨hq, hne⟩ := hold i hq
    rw [DHCPHandler.fire_lookup_ne hne] at howner
    exact hiso.forgotten i hq m e howner he

end Step

theorem Isolated.granted {env : Env} {now : Int} {p : Packet} {t : MessageType}
    {h h' : DHCPHandler} (hiso : Isolated h) (hcare : Careful env now p t h) (hs : h.Sound)
    (hresp : Respected env p t h h') {index : Int} (hgrant : Granted env now p t h h' index) :
    ¬ h'.Quarantined (safeIntToUint64 index) := by
  cases hgrant with
  | static position htype hstat =>
    rw [safeIntToUint64_natCast]
    exact hcare.static (.inl htype) position hstat
  | pinned position htype hstat =>
    rw [safeIntToUint64_natCast]
    exact hcare.static (.inr htype) position hstat
  | renewed _ _ hget hown => exact hiso.cached hs hcare.ordinary hget hown
  | offered _ _ htype hoff =>
    cases hoff with
    | cached _ hget hown => exact hiso.cached hs hcare.ordinary hget hown
    | claimed h₁ i x hfirst hreq hown =>
      intro hq
      rw [safeIntToUint64_natCast] at hq
      exact hcare.asked htype hfirst.searches hfirst.canAllot i hreq hown
        ((quarantined_base hfirst.base).mp hq)
    | allotted h₁ i x hfirst hfree =>
      intro hq
      rw [safeIntToUint64_natCast] at hq
      exact hiso.taken i ((quarantined_base hfirst.base).mp hq) hfree
    | fallback _ hping => exact hresp.first htype hping

theorem isolated_step {cfg : ScopeConfig} {w w' : World} {e : Event} (hreg : w.Regular cfg)
    (hiso : Isolated w.handler) (hcare : w.Careful e) (hst : World.Stepped w e w') :
    Isolated w'.handler := by
  cases hst with
  | dropped => exact hiso
  | handled p t env fuel g h answer hadmits _ hh =>
    exact (hiso.respected (hcare hadmits) hreg.sound hreg.offsets hh.moves).toIsolated
  | tick => exact hiso
  | purge => exact hiso.purge w.now
  | fire k task htask => exact hiso.fire w.now k task (hcare task htask)

theorem isolated_init (cfg : ScopeConfig) (network : IPNet) (ipv4 : Option IPv4) (now : Int) :
    Isolated (World.init cfg network ipv4 now).handler := by
  have hno : ∀ i, ¬ (readConfig cfg).Quarantined i := by
    rintro i ⟨task, htask, -⟩
    cases htask
  exact ⟨fun i hq => absurd hq (hno i), fun i hq => absurd hq (hno i)⟩

/-- In a run of careful steps a quarantined index is never free, and no answer to a careful
packet offers or acknowledges an address whose index is quarantined when the answer is sent. The
condition is a narrow one: where the tasks fire in due order, no quarantine comes to its end in
such a run (`quarantine_never_next`). -/
theorem quarantine_honoured {cfg : ScopeConfig} {network : IPNet} {ipv4 : Option IPv4}
    {now : Int} {w : World} (hrun : World.RunsTo World.Careful cfg network ipv4 now w) :
    (∀ i, w.handler.Quarantined i → i ∉ w.handler.available.free) ∧
    ∀ (p : Packet) (t : MessageType) (env : Env) (fuel : ℕ) (g : Globals) (h : DHCPHandler)
      (answer : Answer) (a : IPv4), w.Careful (.packet p t env fuel) →
      w.serve p t env fuel = some (g, h, answer) →
      answer.offered = some a ∨ answer.acked = some a →
      ¬ h.Quarantined (cfg.position a).toNat := by
  obtain ⟨hreg, hiso⟩ := World.RunsTo.invariant (fun w => Isolated w.handler) hrun
    (isolated_init cfg network ipv4 now)
    (fun w e w' hreg hiso hcare hst => isolated_step hreg hiso hcare hst)
  refine ⟨hiso.taken, fun p t env fuel g h answer a hcare hserve ha => ?_⟩
  obtain ⟨-, -, hnone⟩ | ⟨hadmits, -, hh⟩ := World.serve_cases hreg.sound hserve
  · obtain ⟨hack, hoffer⟩ := Answer.silent hnone
    exact (Answer.not_granted hack hoffer ha).elim
  · have hresp := hiso.respected (hcare hadmits) hreg.sound hreg.offsets hh.moves
    obtain ⟨index, hgrant, haddr⟩ := hh.granted ha
    have hindex := hreg.index_eq (hgrant.isOffset hreg.sound hreg.offsets) haddr
    have hspared := hiso.granted (hcare hadmits) hreg.sound hresp hgrant
    rwa [hindex, safeIntToUint64_natCast] at hspared

theorem careful_of_no_quarantine {w : World} {e : Event} (hordinary : e.Ordinary)
    (hsilent : e.Silent) (hfree : ∀ task ∈ w.handler.tasks, task.kind = .evicted) :
    w.Careful e := by
  have hno : ∀ i, ¬ w.handler.Quarantined i := by
    rintro i ⟨task, htask, hkind, -⟩
    cases (hfree task htask).symm.trans hkind
  cases e with
  | packet p t env fuel =>
    intro _
    exact ⟨hordinary.2.1, fun _ _ _ i _ _ => hno i,
      fun _ hping => absurd hping hsilent.not_answered, fun _ position _ => hno _⟩
  | tick => trivial
  | purge => trivial
  | fire k =>
    intro task _ task' htask' hkind
    cases (hfree task' (List.mem_of_mem_eraseIdx htask')).symm.trans hkind

/-- `02:…:01` releases 10.0.0.10; the next client is offered 10.0.0.11. -/
theorem quarantine_honoured_sample : ∃ w g h answer,
    World.RunsTo World.Careful (Sample.scope [] []) Sample.network none 0 w ∧
    w.handler.Quarantined 0 ∧ 0 ∉ w.handler.available.free ∧
    w.serve (Sample.packet [2, 0, 0, 0, 0, 2] 2 none) .discover (Sample.env []) 3 =
      some (g, h, answer) ∧ answer.offered = some 0x0a00000b#32 ∧ ¬ h.Quarantined 1 := by
  have hall : ∀ e ∈ [Sample.send [2, 0, 0, 0, 0, 1] 1 none .discover,
      Sample.send [2, 0, 0, 0, 0, 1] 1 (some 0x0a00000a#32) .request,
      Sample.send [2, 0, 0, 0, 0, 1] 1 (some 0x0a00000a#32) .release],
      e.Ordinary ∧ e.Silent := by
    intro e he
    refine ⟨?_, ?_⟩
    · revert e
      decide +kernel
    · revert e
      simp [Event.Silent, Sample.send, Sample.silent_env]
  let p := Sample.packet [2, 0, 0, 0, 0, 2] 2 none
  obtain ⟨w, hrun, hp⟩ := Sample.exists_runsTo (Sample.scope [] [])
    (fun w _ => ∀ task ∈ w.handler.tasks, task.kind = .evicted) _
    (fun w => decide (w.handler.Quarantined 0) &&
      decide (w.handler.ipAssigned.lookup p.clientMac = none) &&
      ((w.serve p .discover (Sample.env []) 3).map fun r => r.2.2.offered) ==
        some (some 0x0a00000b#32)) hall (by decide +kernel)
  simp only [Bool.and_eq_true, decide_eq_true_eq, beq_iff_eq, Option.map_eq_some_iff] at hp
  obtain ⟨⟨hq, hdyn⟩, ⟨g, h, answer⟩, hserve, hoffer⟩ := hp
  have hrun' := hrun.mono fun w e hok => careful_of_no_quarantine hok.1.1 hok.1.2 hok.2
  have hcare : w.Careful (.packet p .discover (Sample.env []) 3) := by
    intro _
    refine ⟨by decide +kernel, (fun _ _ _ i hreq => nomatch hreq),
      fun _ hping => absurd hping Sample.silent_env.not_answered, fun _ position hstat => ?_⟩
    cases hdyn.symm.trans hstat
  obtain ⟨htaken, hspared⟩ := quarantine_honoured hrun'
  exact ⟨w, g, h, answer, hrun', hq, htaken 0 hq, hserve, hoffer,
    hspared p .discover _ 3 g h answer _ hcare hserve (.inl hoffer)⟩

/-- The task that fires is the next one due. -/
def World.InDueOrder (w : World) : Event → Prop
  | .fire k => ∀ task ∈ w.handler.tasks[k]?, ∀ task' ∈ w.handler.tasks, task.due ≤ task'.due
  | _ => True

instance (w : World) (e : Event) : Decidable (w.InDueOrder e) :=
  match e with
  | .fire _ => Option.decidableForallMem _
  | .packet _ _ _ _ => inferInstanceAs (Decidable True)
  | .tick _ => inferInstanceAs (Decidable True)
  | .purge => inferInstanceAs (Decidable True)

/-- Beside each quarantine sleeps the callback of the hardware cache, which frees the same index
earlier. -/
def DHCPHandler.Undercut (h : DHCPHandler) : Prop :=
  ∀ task ∈ h.tasks, task.kind = .quarantine → ∃ task' ∈ h.tasks, task'.kind = .evicted ∧
    safeIntToUint64 task'.index = safeIntToUint64 task.index ∧ task'.due < task.due

section Undercut
variable {h h' : DHCPHandler} {now : Int} (hunder : h.Undercut)
include hunder

theorem Undercut.append {l : List Task} (hl : h'.tasks = h.tasks ++ l)
    (hnew : ∀ task ∈ l, task.kind = .quarantine → ∃ task' ∈ l, task'.kind = .evicted ∧
      safeIntToUint64 task'.index = safeIntToUint64 task.index ∧ task'.due < task.due) :
    h'.Undercut := by
  intro task htask hkind
  rw [hl] at htask ⊢
  rcases List.mem_append.mp htask with hold | hadded
  · obtain ⟨task', hmem, hrest⟩ := hunder task hold hkind
    exact ⟨task', List.mem_append_left l hmem, hrest⟩
  · obtain ⟨task', hmem, hrest⟩ := hnew task hadded hkind
    exact ⟨task', List.mem_append_right _ hmem, hrest⟩

theorem Undercut.evict (mac : String) : (h.evict now mac).Undercut := by
  refine Undercut.append hunder (h.evict_tasks now mac) fun task htask hkind => ?_
  obtain ⟨e, -, rfl⟩ := List.mem_map.mp htask
  cases hkind

/-- The two tasks of one quarantine, in either order. -/
theorem Undercut.pair (begun index : Int) {l : List Task} (hl : h'.tasks = h.tasks ++ l)
    (hmem : ∀ task, task ∈ l ↔ task = ⟨begun + 30 * second, index, .evicted⟩ ∨
      task = ⟨begun + 10 * minute, index, .quarantine⟩) : h'.Undercut := by
  refine Undercut.append hunder hl fun task htask hkind => ?_
  refine ⟨_, (hmem _).mpr (.inl rfl), rfl, ?_⟩
  rcases (hmem task).mp htask with rfl | rfl
  · cases hkind
  · refine ⟨rfl, ?_⟩
    show begun + 30 * second < begun + 10 * minute
    unfold minute second
    omega

theorem Undercut.move {env : Env} {p : Packet} {t : MessageType} {h₀ : DHCPHandler}
    (hm : Move env now p t h₀ h h') : h'.Undercut := by
  cases hm with
  | evict => exact Undercut.evict hunder p.clientMac
  | regain => exact Undercut.evict hunder p.clientMac
  | contest k e _ _ hpeek =>
    refine Undercut.pair hunder now e.object (l := [⟨now + 30 * second, e.object, .evicted⟩,
      ⟨now + 10 * minute, e.object, .quarantine⟩]) ?_ fun task => ?_
    · simp [hpeek]
    · simp
  | retire x _ hget =>
    obtain ⟨e, hpeek, -, rfl⟩ := Cache.get_eq_some.mp hget
    have hpeek' : (h.quarantine now e.object).hwcache.peek p.clientMac = some e := hpeek
    refine Undercut.pair hunder now e.object (l := [⟨now + 10 * minute, e.object, .quarantine⟩,
      ⟨now + 30 * second, e.object, .evicted⟩]) ?_ fun task => ?_
    · simp [hpeek']
    · simp [or_comm]
  | _ => exact hunder

theorem Undercut.purge : (h.purge now).Undercut := by
  rw [DHCPHandler.purge_eq]
  refine Undercut.append hunder rfl fun task htask hkind => ?_
  obtain ⟨e, -, rfl⟩ := List.mem_map.mp htask
  cases hkind

theorem Undercut.fire {k : ℕ} {task : Task} (htask : h.tasks[k]? = some task)
    (hother : ∀ task' ∈ h.tasks.eraseIdx k, task'.kind = .quarantine →
      safeIntToUint64 task'.index ≠ safeIntToUint64 task.index) :
    (h.fire now k task).Undercut := by
  intro q hq hkind
  obtain ⟨task', hmem, hevicted, hidx, hdue⟩ := hunder q (List.mem_of_mem_eraseIdx hq) hkind
  refine ⟨task', DHCPHandler.mem_tasks_fire htask ?_ hmem, hevicted, hidx, hdue⟩
  rintro rfl
  exact hother q hq hkind hidx.symm

end Undercut

/-- In a run of careful steps the next task that is due never is one that ends a quarantine. -/
theorem quarantine_never_next {cfg : ScopeConfig} {network : IPNet} {ipv4 : Option IPv4}
    {now : Int} {w : World} (hrun : World.RunsTo World.Careful cfg network ipv4 now w) {k : ℕ}
    {task : Task} (htask : w.handler.tasks[k]? = some task) (hkind : task.kind = .quarantine) :
    ¬ w.InDueOrder (.fire k) := by
  obtain ⟨-, hunder⟩ := World.RunsTo.invariant (fun w => w.handler.Undercut) hrun
    (fun task htask => nomatch htask) fun w e w' hreg hunder hcare hst => by
      cases hst with
      | dropped => exact hunder
      | handled p t env fuel g h answer hadmits _ hh =>
        exact (Moves.invariant DHCPHandler.Undercut
          (fun _ _ hm _ hunder => Undercut.move hunder hm) hh.moves hreg.sound hunder).2
      | tick => exact hunder
      | purge => exact Undercut.purge hunder
      | fire k task htask => exact Undercut.fire hunder htask (hcare task htask)
  intro hdue
  obtain ⟨task', hmem, -, -, hlt⟩ := hunder task (List.mem_of_getElem? htask) hkind
  have hle := hdue task htask task' hmem
  omega

/-- A client releases its address. The callback of the hardware cache frees the index 30
seconds later, with the quarantine still running. -/
theorem quarantined_index_free : ¬ ∀ (cfg : ScopeConfig) (network : IPNet) (ipv4 : Option IPv4)
    (now : Int) (w : World), World.RunsTo World.InDueOrder cfg network ipv4 now w →
    (∀ i, w.handler.Quarantined i → i ∉ w.handler.available.free) ∧
    ∀ (p : Packet) (t : MessageType) (env : Env) (fuel : ℕ) (g : Globals) (h : DHCPHandler)
      (answer : Answer) (a : IPv4), w.serve p t env fuel = some (g, h, answer) →
      answer.offered = some a ∨ answer.acked = some a →
      ¬ h.Quarantined (cfg.position a).toNat := by
  intro hclaim
  obtain ⟨w, hrun, hp⟩ := Sample.exists_runsTo (Sample.scope [] []) World.InDueOrder
    [Sample.send [2, 0, 0, 0, 0, 1] 1 none .discover,
      Sample.send [2, 0, 0, 0, 0, 1] 1 (some 0x0a00000a#32) .request,
      Sample.send [2, 0, 0, 0, 0, 1] 1 (some 0x0a00000a#32) .release,
      .tick 30000000000, .fire 1]
    (fun w => decide (w.handler.Quarantined 0) && decide (0 ∈ w.handler.available.free))
    (fun _ _ => trivial) (by decide +kernel)
  simp only [Bool.and_eq_true, decide_eq_true_eq] at hp
  have hrun' := hrun.mono fun w e hok => hok.2
  exact (hclaim _ _ _ _ w hrun').1 0 hp.1 hp.2

end StandaloneDHCP
