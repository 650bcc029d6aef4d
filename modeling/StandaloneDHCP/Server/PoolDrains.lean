import StandaloneDHCP.Server.Accounting

/-! The pool fills up again. Every entry of the hardware cache has a deadline, every sleeping free a
due time, and both lie in the near future (`Timely`). Once no packet comes any more, the entries
expire, the janitor turns them into sleeping frees (`Draining`), and when the last of these has
fired (`Drained`) every address that the configuration left free is free again: nothing is lost on
the way, because every index in use is in an entry or in a task (`Accounted`). -/
namespace StandaloneDHCP
open Lib
set_option autoImplicit false

/-- No entry lives longer than `l` from now on, and no free sleeps longer than ten minutes. -/
structure Timely (l now : Int) (h : DHCPHandler) : Prop where
  entries : ∀ m e, h.hwcache.peek m = some e → ∃ x, e.expiration = some x ∧ x ≤ now + l
  tasks : ∀ task ∈ h.tasks, task.due ≤ now + 10 * minute

namespace Timely
variable {l now : Int} {h : DHCPHandler}

theorem later (ht : Timely l now h) {now' : Int} (hle : now ≤ now') : Timely l now' h := by
  refine ⟨fun m e he => ?_, fun task htask => ?_⟩
  · obtain ⟨x, hx, hxl⟩ := ht.entries m e he
    exact ⟨x, hx, by omega⟩
  · have hdue := ht.tasks task htask
    omega

/-- The pool and the transaction markers have no part in it. -/
theorem congr {h' : DHCPHandler} (ht : Timely l now h) (hc : h'.hwcache = h.hwcache)
    (htasks : h'.tasks = h.tasks) : Timely l now h' :=
  ⟨by rw [hc]; exact ht.entries, by rw [htasks]; exact ht.tasks⟩

theorem lock (ht : Timely l now h) (mac : String) (index : Int) {d : Int} (hd : 0 < d)
    (hdl : d ≤ l) : Timely l now (h.lock now mac index d) := by
  refine ⟨fun m e he => ?_, ht.tasks⟩
  by_cases hm : m = mac
  · subst hm
    rw [DHCPHandler.peek_lock] at he
    cases he
    exact ⟨now + d, Cache.deadline_of_pos _ _ hd, by omega⟩
  · rw [DHCPHandler.peek_lock_ne h now index d hm] at he
    exact ht.entries m e he

theorem evict (ht : Timely l now h) (mac : String) : Timely l now (h.evict now mac) := by
  refine ⟨fun m e he => ?_, fun task htask => ?_⟩
  · by_cases hm : m = mac
    · subst hm
      rw [DHCPHandler.peek_evict] at he
      cases he
    · rw [DHCPHandler.peek_evict_ne h now hm] at he
      exact ht.entries m e he
  · rw [DHCPHandler.evict_tasks, List.mem_append, List.mem_map] at htask
    obtain hold | ⟨e, -, rfl⟩ := htask
    · exact ht.tasks task hold
    · show now + 30 * second ≤ now + 10 * minute
      have hlt : (30 : Int) * second ≤ 10 * minute := by decide
      omega

theorem quarantine (ht : Timely l now h) (index : Int) : Timely l now (h.quarantine now index) := by
  refine ⟨ht.entries, fun task htask => ?_⟩
  rw [DHCPHandler.quarantine_tasks, List.mem_append, List.mem_singleton] at htask
  obtain hold | rfl := htask
  · exact ht.tasks task hold
  · exact Int.le_refl _

theorem purge (ht : Timely l now h) : Timely l now (h.purge now) := by
  rw [DHCPHandler.purge_eq]
  refine ⟨fun m e he => ht.entries m e (Cache.peek_deleteExpired.mp he).1, fun task htask => ?_⟩
  rw [List.mem_append, List.mem_map] at htask
  obtain hold | ⟨e, -, rfl⟩ := htask
  · exact ht.tasks task hold
  · show now + 30 * second ≤ now + 10 * minute
    have hlt : (30 : Int) * second ≤ 10 * minute := by decide
    omega

theorem fire (ht : Timely l now h) (k : ℕ) (task : Task) : Timely l now (h.fire now k task) :=
  ⟨ht.entries, fun task' htask' => ht.tasks task' (List.mem_of_mem_eraseIdx htask')⟩

theorem leased (ht : Timely l now h) (hpos : 0 < h.leaseDuration + 15 * second)
    (hle : h.leaseDuration + 15 * second ≤ l) (mac : String) (index : Int) :
    Timely l now ((h.lock now mac index (h.leaseDuration + 15 * second)).reserve index mac) :=
  (ht.lock mac index hpos hle).congr rfl rfl

/-! ## One packet -/

section Packet
variable {env : Env} {p : Packet} {t : MessageType} {fuel : ℕ} {networkIP : String}
  {answer answer' : Answer} {h' : DHCPHandler} (hl : 5 * second ≤ l)
include hl

theorem offerLock (ht : Timely l now h) (mac : String) (index : Int) :
    Timely l now (h.lock now mac index (5 * second)) :=
  ht.lock mac index (by decide) hl

theorem retry {round : ℕ} {firstTry : Bool} {free : Int} {out : Option Int} (ht : Timely l now h)
    (hr : retry env now p fuel round firstTry free h = some (h', out)) : Timely l now h' := by
  induction fuel generalizing h round firstTry free with
  | zero => cases hr
  | succ fuel ih =>
    rw [StandaloneDHCP.retry] at hr
    split_ifs at hr
    · cases hr
      exact ht
    split at hr
    · cases hr
      exact ht
    · exact ih ht hr
    · split at hr
      · cases hr
        exact ht.congr rfl rfl
      · next available' free' _ =>
        have hpool : Timely l now { h with available := available' } := ht.congr rfl rfl
        have hlocked := hpool.offerLock hl p.clientMac free'
        have hmarked : Timely l now (({ h with available := available' }.lock now p.clientMac free'
            (5 * second)).setXid now p) := hlocked.congr rfl rfl
        dsimp only at hr
        split_ifs at hr
        · exact ih ((hmarked.evict p.clientMac).quarantine free') hr
        · cases hr
          exact (hmarked.offerLock hl p.clientMac free').congr rfl rfl

theorem allocate (ht : Timely l now h)
    (hr : allocate env fuel now h networkIP p answer = some (h', answer')) : Timely l now h' := by
  obtain ⟨⟨h₁, out⟩, hretry, heq⟩ := Option.map_eq_some_iff.mp hr
  have ht₁ := ht.retry hl hretry
  cases out with
  | none =>
    cases heq
    exact ht₁
  | some free =>
    cases heq
    exact ht₁

theorem confirm (ht : Timely l now h) (x : Int) :
    Timely l now (confirm env now h networkIP p answer x).1 := by
  unfold StandaloneDHCP.confirm
  split
  · exact ht
  · next c hrep =>
    obtain ⟨-, rfl⟩ := Cache.replace_eq_some.mp hrep
    exact ht.offerLock hl p.clientMac x

theorem serveDiscover (ht : Timely l now h)
    (hr : serveDiscover env fuel now h networkIP p answer = some (h', answer')) :
    Timely l now h' := by
  have hconfirm : ∀ {h : DHCPHandler} {x : Int}, Timely l now h →
      some (StandaloneDHCP.confirm env now h networkIP p answer x) = some (h', answer') →
        Timely l now h' := by
    intro h x ht heq
    have hfst : (StandaloneDHCP.confirm env now h networkIP p answer x).1 = h' :=
      congrArg Prod.fst (Option.some.inj heq)
    rw [← hfst]
    exact ht.confirm hl x
  unfold StandaloneDHCP.serveDiscover at hr
  split at hr
  · cases hr
    exact ht
  split at hr
  · exact ht.allocate hl hr
  split_ifs at hr
  · exact hconfirm ht hr
  · have hfreed : ∀ available,
        Timely l now { h.evict now p.clientMac with available := available } :=
      fun _ => (ht.evict p.clientMac).congr rfl rfl
    dsimp only at hr
    split_ifs at hr
    · exact hconfirm (hfreed _) hr
    · exact (hfreed _).allocate hl hr
  · exact ht.allocate hl hr

theorem serveMessage {g g' : Globals} (ht : Timely l now h)
    (hpos : 0 < h.leaseDuration + 15 * second) (hle : h.leaseDuration + 15 * second ≤ l)
    (hnone : answer.d = none)
    (hr : serveMessage env fuel now g h networkIP p t answer = some (g', h', answer')) :
    Timely l now h' := by
  have hrequest : some (serveRequest env now g h networkIP p t answer) = some (g', h', answer') →
      Timely l now h' := by
    intro heq
    cases serveRequest_spec hnone (Option.some.inj heq) with
    | unchanged => exact ht
    | dropped => exact ht.evict p.clientMac
    | renewed _ index => exact ht.leased hpos hle p.clientMac index
    | pinned _ position => exact ht.leased hpos hle p.clientMac position.toNat
  have hretire : Timely l now (StandaloneDHCP.retire now h p) := by
    obtain heq | ⟨x, -, -, heq⟩ := retire_cases now h p
    · rw [heq]
      exact ht
    · rw [heq]
      exact (ht.quarantine x).evict p.clientMac
  cases t with
  | discover =>
    obtain ⟨r, hserve, heq⟩ := Option.map_eq_some_iff.mp hr
    cases heq
    exact ht.serveDiscover hl hserve
  | request => exact hrequest hr
  | inform => exact hrequest hr
  | release | decline =>
    cases hr
    exact hretire
  | offer | ack | nak =>
    cases hr
    exact ht

end Packet
end Timely

/-! ## Whole runs -/

/-- The longest lifetime of an entry. -/
def ScopeConfig.lifetime (cfg : ScopeConfig) : Int :=
  max (5 * second) (cfg.seconds * second + 15 * second)

theorem Timely.step {cfg : ScopeConfig} {w w' : World} {e : Event} (hlife : -15 < cfg.seconds)
    (hreg : w.Regular cfg) (ht : Timely cfg.lifetime w.now w.handler)
    (hstep : w.step e = some w') : Timely cfg.lifetime w'.now w'.handler := by
  cases e with
  | packet p t env fuel =>
    obtain ⟨g, h, answer, hserve, rfl⟩ := World.step_packet hstep
    obtain ⟨-, rfl, -⟩ | ⟨-, hmessage⟩ := World.serve_message hserve
    · exact ht
    · have hduration : w.handler.leaseDuration = cfg.seconds * second :=
        DHCPHandler.leaseDuration_of_settings hreg.settings
      have hpos : 0 < w.handler.leaseDuration + 15 * second := by
        rw [hduration]
        unfold second
        omega
      refine ht.serveMessage (le_max_left _ _) hpos ?_ rfl hmessage
      rw [hduration]
      exact le_max_right _ _
  | tick d =>
    cases hstep
    have hle : w.now ≤ w.now + (d : Int) := by omega
    exact ht.later hle
  | purge =>
    cases hstep
    exact ht.purge
  | fire k =>
    simp only [World.step] at hstep
    split at hstep
    · next task htask =>
      split_ifs at hstep
      cases hstep
      exact ht.fire k task
    · cases hstep

theorem World.RunsTo.timely {ok : World → Event → Prop} {cfg : ScopeConfig} {network : IPNet}
    {ipv4 : Option IPv4} {now : Int} {w : World} (hlife : -15 < cfg.seconds)
    (hrun : World.RunsTo ok cfg network ipv4 now w) :
    w.Regular cfg ∧ Timely cfg.lifetime w.now w.handler := by
  refine Reaches.invariant (fun w => w.Regular cfg ∧ Timely cfg.lifetime w.now w.handler) hrun
    ⟨World.regular_init cfg network ipv4 now, ?_, ?_⟩ ?_
  · intro m e he
    cases (Cache.peek_empty _ _).symm.trans he
  · intro task htask
    cases htask
  · rintro w e w' ⟨hreg, ht⟩ - hstep
    exact ⟨(World.step_stepped hreg.sound hstep).regular hreg, ht.step hlife hreg hstep⟩

/-! ## The drain -/

/-- Nothing arrives. -/
def Event.Quiet : Event → Prop
  | .packet _ _ _ _ => False
  | _ => True

theorem World.quiet_cases {w w' : World} {e : Event} (hquiet : e.Quiet)
    (hstep : w.step e = some w') :
    (∃ d : ℕ, w' = { w with now := w.now + d }) ∨ w' = w.setHandler (w.handler.purge w.now) ∨
      ∃ k task, w' = w.setHandler (w.handler.fire w.now k task) := by
  cases e with
  | packet => exact hquiet.elim
  | tick d =>
    cases hstep
    exact .inl ⟨d, rfl⟩
  | purge =>
    cases hstep
    exact .inr (.inl rfl)
  | fire k =>
    simp only [step] at hstep
    split at hstep
    · next task _ =>
      split_ifs at hstep
      cases hstep
      exact .inr (.inr ⟨k, task, rfl⟩)
    · cases hstep

/-- The entries expire by `x`, and a free that sleeps beyond `due` was started by the janitor less
than 30 seconds ago. -/
structure Draining (x due now : Int) (h : DHCPHandler) : Prop where
  entries : ∀ m e, h.hwcache.peek m = some e → ∃ y, e.expiration = some y ∧ y ≤ x
  tasks : ∀ task ∈ h.tasks, task.due ≤ due ∨ task.due ≤ now + 30 * second

/-- No entry is left, and no free sleeps beyond `due`. -/
structure Drained (due : Int) (h : DHCPHandler) : Prop where
  entries : ∀ m, h.hwcache.peek m = none
  tasks : ∀ task ∈ h.tasks, task.due ≤ due

section Quiet
variable {x due : Int} {w w' : World} {e : Event} (hquiet : e.Quiet)
  (hstep : w.step e = some w')
include hquiet hstep

theorem Draining.step (hd : Draining x due w.now w.handler) :
    Draining x due w'.now w'.handler := by
  obtain ⟨d, rfl⟩ | rfl | ⟨k, task, rfl⟩ := World.quiet_cases hquiet hstep
  · refine ⟨hd.entries, fun task htask => (hd.tasks task htask).imp_right fun hdue => ?_⟩
    show task.due ≤ w.now + (d : Int) + 30 * second
    omega
  · show Draining x due w.now (w.handler.purge w.now)
    rw [DHCPHandler.purge_eq]
    refine ⟨fun m e he => hd.entries m e (Cache.peek_deleteExpired.mp he).1, fun task htask => ?_⟩
    rw [List.mem_append, List.mem_map] at htask
    obtain hold | ⟨e, -, rfl⟩ := htask
    · exact hd.tasks task hold
    · exact .inr (Int.le_refl _)
  · exact ⟨hd.entries, fun task' htask' => hd.tasks task' (List.mem_of_mem_eraseIdx htask')⟩

/-- The janitor finds nothing any more. -/
theorem Drained.step (hd : Drained due w.handler) : Drained due w'.handler := by
  obtain ⟨d, rfl⟩ | rfl | ⟨k, task, rfl⟩ := World.quiet_cases hquiet hstep
  · exact hd
  · show Drained due (w.handler.purge w.now)
    rw [DHCPHandler.purge_eq]
    refine ⟨fun m => ?_, fun task htask => ?_⟩
    · cases hpeek : (w.handler.hwcache.deleteExpired w.now).1.peek m with
      | none => rfl
      | some e => cases (hd.entries m).symm.trans (Cache.peek_deleteExpired.mp hpeek).1
    · rw [List.mem_append, List.mem_map] at htask
      obtain hold | ⟨⟨m, i⟩, hevicted, rfl⟩ := htask
      · exact hd.tasks task hold
      · obtain ⟨e, he, -⟩ := Cache.mem_deleteExpired.mp hevicted
        cases (hd.entries m).symm.trans he
  · exact ⟨hd.entries, fun task' htask' => hd.tasks task' (List.mem_of_mem_eraseIdx htask')⟩

end Quiet

/-- A purge after the last entry has expired. -/
theorem Draining.purge {x due now : Int} {h : DHCPHandler} (hd : Draining x due now h)
    (hlate : x < now) : Drained (max due (now + 30 * second)) (h.purge now) := by
  rw [DHCPHandler.purge_eq]
  refine ⟨fun m => ?_, fun task htask => ?_⟩
  · cases hpeek : (h.hwcache.deleteExpired now).1.peek m with
    | none => rfl
    | some e =>
      obtain ⟨he, hlive⟩ := Cache.peek_deleteExpired.mp hpeek
      obtain ⟨y, hy, hle⟩ := hd.entries m e he
      have hexp : e.expired now = true := by
        simp only [Item.expired, hy, decide_eq_true_eq]
        omega
      rw [hexp] at hlive
      cases hlive
  · rw [List.mem_append, List.mem_map] at htask
    obtain hold | ⟨e, -, rfl⟩ := htask
    · have hdue := hd.tasks task hold
      omega
    · exact le_max_right _ _

/-- All sleeping frees whose time has come wake up. -/
theorem World.fires_all {w : World} (hdue : ∀ task ∈ w.handler.tasks, task.due ≤ w.now) :
    ∃ w', Reaches World.step (fun _ e => e.Quiet) w w' ∧ w'.handler.tasks = [] ∧
      w'.now = w.now := by
  generalize hn : w.handler.tasks.length = n
  induction n generalizing w with
  | zero => exact ⟨w, .start, List.length_eq_zero_iff.mp hn, rfl⟩
  | succ n ih =>
    obtain ⟨task, rest, htasks⟩ := List.exists_cons_of_length_eq_add_one hn
    have hfirst : w.step (.fire 0) = some (w.setHandler (w.handler.fire w.now 0 task)) := by
      have htask := hdue task (by rw [htasks]; exact List.mem_cons_self)
      have hget : w.handler.tasks[0]? = some task := by rw [htasks]; rfl
      simp only [step, hget, if_pos htask]
    have hrest : (w.setHandler (w.handler.fire w.now 0 task)).handler.tasks = rest := by
      show w.handler.tasks.eraseIdx 0 = rest
      rw [htasks]
      rfl
    obtain ⟨w', hrun, hnil, hnow⟩ := ih (w := w.setHandler (w.handler.fire w.now 0 task))
      (fun task' htask' => hdue task' (List.mem_of_mem_eraseIdx htask')) (by
        rw [hrest]
        rw [htasks] at hn
        exact Nat.succ.inj hn)
    have hstep : Reaches World.step (fun _ e => e.Quiet) w
        (w.setHandler (w.handler.fire w.now 0 task)) := .next (e := .fire 0) .start trivial hfirst
    exact ⟨w', hstep.trans hrun, hnil, hnow⟩

/-- A run without packets: the janitor comes when more than the time `l` has passed, and later, ten
minutes after the start and 30 seconds after the janitor or more, no free whose time has come is
still asleep. -/
def World.DrainsTo (l : Int) (w w' : World) : Prop :=
  ∃ w₁ w₂, Reaches World.step (fun _ e => e.Quiet) w w₁ ∧ w.now + l < w₁.now ∧
    w₁.step .purge = some w₂ ∧ Reaches World.step (fun _ e => e.Quiet) w₂ w' ∧
    w.now + 10 * minute ≤ w'.now ∧ w₂.now + 30 * second ≤ w'.now ∧
    ∀ task ∈ w'.handler.tasks, w'.now < task.due

section Drain
variable {l : Int} {w w' : World}

theorem World.DrainsTo.reaches (hdrains : w.DrainsTo l w') :
    Reaches World.step (fun _ e => e.Quiet) w w' := by
  obtain ⟨w₁, w₂, hfirst, -, hpurge, hlast, -⟩ := hdrains
  have hpurged : Reaches World.step (fun _ e => e.Quiet) w w₂ :=
    .next (e := .purge) hfirst trivial hpurge
  exact hpurged.trans hlast

/-- Neither an entry nor a task is left. -/
theorem World.DrainsTo.empty (hdrains : w.DrainsTo l w') (ht : Timely l w.now w.handler) :
    (∀ m, w'.handler.hwcache.peek m = none) ∧ w'.handler.tasks = [] := by
  obtain ⟨w₁, w₂, hfirst, hlate, hpurge, hlast, hten, hthirty, hawake⟩ := hdrains
  have hstart : Draining (w.now + l) (w.now + 10 * minute) w.now w.handler :=
    ⟨ht.entries, fun task htask => .inl (ht.tasks task htask)⟩
  have hdraining : Draining (w.now + l) (w.now + 10 * minute) w₁.now w₁.handler :=
    Reaches.invariant (fun u => Draining (w.now + l) (w.now + 10 * minute) u.now u.handler) hfirst
      hstart fun _ _ _ hd hquiet hstep => hd.step hquiet hstep
  cases hpurge
  have hdrained := Reaches.invariant
    (fun u => Drained (max (w.now + 10 * minute) (w₁.now + 30 * second)) u.handler) hlast
    (hdraining.purge hlate) fun _ _ _ hd hquiet hstep => hd.step hquiet hstep
  refine ⟨hdrained.entries, List.eq_nil_iff_forall_not_mem.mpr fun task htask => ?_⟩
  have hdue := hdrained.tasks task htask
  have hlt := hawake task htask
  have hnow : w₁.now + 30 * second ≤ w'.now := hthirty
  omega

/-- Such a run exists: the clock goes on, the janitor comes once, and the frees fire. -/
theorem World.exists_drainsTo (ht : Timely l w.now w.handler) (hl : 0 ≤ l) :
    ∃ w', w.DrainsTo l w' := by
  obtain ⟨d, hd⟩ := Int.eq_ofNat_of_zero_le (Int.le_trans hl (Int.le.intro 1 rfl))
  let w₁ : World := { w with now := w.now + d }
  let w₂ : World := w₁.setHandler (w₁.handler.purge w₁.now)
  let w₃ : World := { w₂ with now := w₂.now + (10 * minute).toNat }
  have hfirst : Reaches World.step (fun _ e => e.Quiet) w w₁ :=
    .next (e := .tick d) .start trivial rfl
  have hwait : Reaches World.step (fun _ e => e.Quiet) w₂ w₃ :=
    .next (e := .tick (10 * minute).toNat) .start trivial rfl
  have hnow₁ : w₁.now = w.now + l + 1 := by
    show w.now + (d : Int) = _
    omega
  have hmin : 30 * second ≤ 10 * minute ∧ 0 ≤ 10 * minute := by decide
  have hnow₃ : w₃.now = w₁.now + 10 * minute := by
    show w₁.now + ((10 * minute).toNat : Int) = _
    omega
  have ht₂ : Timely l w₁.now w₂.handler := (ht.later (by omega)).purge
  obtain ⟨w', hfires, hnil, hnow⟩ := World.fires_all (w := w₃) fun task htask => by
    have hdue := ht₂.tasks task htask
    omega
  have hnow₂ : w₂.now = w₁.now := rfl
  refine ⟨w', w₁, w₂, hfirst, by omega, rfl, hwait.trans hfires, by omega, by omega, ?_⟩
  rw [hnil]
  exact fun _ htask => by cases htask

end Drain

/-- When no packet comes any more, the janitor has come after the longest lifetime of an entry, and
no due free is left asleep, every address that was free after the configuration is free again. Such
a run exists from every state. -/
theorem pool_drains {cfg : ScopeConfig} {network : IPNet} {ipv4 : Option IPv4} {now : Int}
    {w : World} (hlife : -15 < cfg.seconds)
    (hrun : World.RunsTo (fun w e => ¬ w.OverwritesExpired e) cfg network ipv4 now w) :
    (∀ w', w.DrainsTo cfg.lifetime w' →
      (readConfig cfg).available.free ⊆ w'.handler.available.free) ∧
    ∃ w', w.DrainsTo cfg.lifetime w' := by
  obtain ⟨-, ht⟩ := hrun.timely hlife
  refine ⟨fun w' hdrains i hi => ?_,
    World.exists_drainsTo ht (le_trans (by decide) (le_max_left _ _))⟩
  obtain ⟨hcache, hnil⟩ := hdrains.empty ht
  have hrun' : World.RunsTo (fun w e => ¬ w.OverwritesExpired e) cfg network ipv4 now w' := by
    refine hrun.trans (hdrains.reaches.mono fun u e he hover => ?_)
    cases e with
    | packet => exact he
    | _ => exact hover
  obtain ⟨hreg, hacc⟩ := World.RunsTo.invariant
    (fun w => Accounted (fun i => ∃ e ∈ cfg.reservations, e.1 = i) w.handler) hrun'
    (accounted_init cfg) (fun w e w' hreg hacc hok hst => hacc.step hreg hok hst)
  have hlt : i < cfg.size := by
    have hcap := (readConfig_sound cfg).pool.free_lt hi
    rwa [readConfig_capacity] at hcap
  -- an owner would have an entry, a task or a line of the configuration
  by_contra hused
  rw [← hreg.capacity] at hlt
  obtain ⟨o, hown⟩ := hreg.sound.pool.exists_owner hlt hused
  obtain ⟨e, he, hidx⟩ | ⟨e, he, -⟩ | ⟨task, htask, -⟩ := hacc.owned i o hown
  · rw [hreg.capacity] at hlt
    obtain ⟨-, hno⟩ | ⟨r, _, _, hlookup⟩ := readConfig_free cfg hlt
    · exact hno e he hidx
    · exact (readConfig_sound cfg).pool.notMem_free hlookup hi
  · cases (hcache o).symm.trans he
  · rw [hnil] at htask
    cases htask

/-- One client holds a lease, another one has released its address, and an offer is open. -/
theorem pool_drains_sample : ∃ w w', World.RunsTo (fun w e => ¬ w.OverwritesExpired e)
      (Sample.scope [] []) Sample.network none 0 w ∧ w.handler.available.freeIPsRemaining = 0 ∧
    w.DrainsTo (Sample.scope [] []).lifetime w' ∧
      (readConfig (Sample.scope [] [])).available.free ⊆ w'.handler.available.free := by
  let first := Sample.send [2, 0, 0, 0, 0, 1]
  let other := Sample.send [2, 0, 0, 0, 0, 2]
  obtain ⟨w, hrun, hp⟩ := Sample.exists_runsTo (Sample.scope [] [])
    (fun w e => ¬ w.OverwritesExpired e)
    [first 1 none .discover, first 1 (some 0x0a00000a#32) .request, other 2 none .discover,
      other 2 (some 0x0a00000b#32) .request, .tick 60000000000,
      other 3 (some 0x0a00000b#32) .release, Sample.send [2, 0, 0, 0, 0, 3] 4 none .discover]
    (fun w => decide (w.handler.available.freeIPsRemaining = 0)) (fun _ _ => trivial)
    (by decide +kernel)
  have hrun' := hrun.mono fun _ _ hok => hok.2
  obtain ⟨hfree, w', hdrains⟩ := pool_drains (by decide) hrun'
  exact ⟨w, w', hrun', of_decide_eq_true hp, hdrains, hfree w' hdrains⟩

end StandaloneDHCP
