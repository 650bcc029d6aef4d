import StandaloneDHCP.Server.HandlerRun

/-! No address is lost. An index that is not free is configured away, or is the cached index
of its owner, or is the target of a sleeping `FreeIPIndex`; each of these leads back to a
free. The bookkeeping is by the owner: every move keeps the entry of the owner or turns it into
a task. The one exception is `hwcache.Set` on an entry that has expired and is not purged yet,
which forgets the index the entry held. -/
namespace StandaloneDHCP
open Lib
set_option autoImplicit false

/-- The index `i` is the cached index of `o` or the target of a sleeping task. -/
def Tracked (h : DHCPHandler) (i : ℕ) (o : String) : Prop :=
  (∃ e, h.hwcache.peek o = some e ∧ safeIntToUint64 e.object = i) ∨
    ∃ task ∈ h.tasks, safeIntToUint64 task.index = i

/-- The packet is allotted an index, although the client's entry is only expired and not purged
yet: the pool still records the client for the index of the entry, nothing is scheduled to free
it, and the packet does not ask for it. -/
def Overwrites (now : Int) (h : DHCPHandler) (p : Packet) : Prop :=
  h.ipAssigned.lookup p.clientMac = none ∧ h.CanAllot p ∧
    ∃ e ∈ h.hwcache.peek p.clientMac, e.expired now = true ∧
    h.available.mac.lookup (safeIntToUint64 e.object) = some p.clientMac ∧
    (∀ task ∈ h.tasks, safeIntToUint64 task.index ≠ safeIntToUint64 e.object) ∧
    requestedIndex h p ≠ some (safeIntToUint64 e.object)

def World.OverwritesExpired (w : World) : Event → Prop
  | .packet p .discover _ _ => w.Admits p .discover ∧ Overwrites w.now w.handler p
  | _ => False

instance (now : Int) (h : DHCPHandler) (p : Packet) : Decidable (Overwrites now h p) :=
  @instDecidableAnd _ _ _ (@instDecidableAnd _ _ _ (Option.decidableExistsMem _))

instance (w : World) (e : Event) : Decidable (w.OverwritesExpired e) :=
  match e with
  | .packet _ .discover _ _ => inferInstanceAs (Decidable (_ ∧ _))
  | .packet _ .offer _ _ | .packet _ .request _ _ | .packet _ .decline _ _ | .packet _ .ack _ _
  | .packet _ .nak _ _ | .packet _ .release _ _ | .packet _ .inform _ _ | .tick _ | .purge
  | .fire _ => inferInstanceAs (Decidable False)

/-- Every owned index is exempt or tracked; static clients cache their own position only. -/
structure Accounted (exempt : ℕ → Prop) (h : DHCPHandler) : Prop where
  owned : ∀ i o, h.available.mac.lookup i = some o → exempt i ∨ Tracked h i o
  static : ∀ m position, h.ipAssigned.lookup m = some position →
    exempt position.toNat ∧ ∀ e, h.hwcache.peek m = some e → e.object = position.toNat

section Moves
variable {env : Env} {now : Int} {p : Packet} {t : MessageType} {h₀ h h' : DHCPHandler}
  {exempt : ℕ → Prop} {i : ℕ} {o : String}

theorem tracked_evict (now : Int) (o : String) {e : Item Int}
    (he : h.hwcache.peek p.clientMac = some e) (hi : safeIntToUint64 e.object = i) :
    Tracked (h.evict now p.clientMac) i o := by
  refine .inr ⟨⟨now + 30 * second, e.object, .evicted⟩, ?_, hi⟩
  rw [DHCPHandler.evict_tasks, he]
  exact List.mem_append_right _ List.mem_cons_self

theorem tracked_quarantine {index : Int} (hi : safeIntToUint64 index = i) :
    Tracked (h.quarantine now index) i o := by
  refine .inr ⟨⟨now + 10 * minute, index, .quarantine⟩, ?_, hi⟩
  rw [DHCPHandler.quarantine_tasks]
  exact List.mem_append_right _ List.mem_cons_self

theorem tracked_lock {mac : String} {index d : Int} (hi : safeIntToUint64 index = i) :
    Tracked (h.lock now mac index d) i mac :=
  .inl ⟨_, h.peek_lock now mac index d, hi⟩

theorem tracked_of_task {task : Task} (hgrow : ∃ l, h'.tasks = h.tasks ++ l)
    (htask : task ∈ h.tasks) (hi : safeIntToUint64 task.index = i) : Tracked h' i o := by
  obtain ⟨l, hl⟩ := hgrow
  exact .inr ⟨task, by rw [hl]; exact List.mem_append_left l htask, hi⟩

/-- Overwriting the entry of the owner loses nothing, unless the packet overwrites an expired
entry in the sense of `Overwrites`. -/
theorem tracked_overwrite (hs : h.Sound) (hkeep : ¬ Overwrites now h₀ p)
    (hfirst : Untouched now p h₀ h) (hgrow : ∃ l, h'.tasks = h.tasks ++ l)
    (hi : h.available.mac.lookup i = some p.clientMac) {e : Item Int}
    (he : h.hwcache.peek p.clientMac = some e) (hobj : safeIntToUint64 e.object = i)
    (hreq : requestedIndex h p = some i → Tracked h' i p.clientMac) :
    Tracked h' i p.clientMac := by
  obtain ⟨rfl | rfl, hsearch, hcan⟩ := hfirst
  swap
  · rw [DHCPHandler.peek_evict] at he
    cases he
  by_cases hexp : e.expired now = true
  · by_cases hreq' : requestedIndex h p = some i
    · exact hreq hreq'
    · by_cases htask : ∃ task ∈ h.tasks, safeIntToUint64 task.index = i
      · obtain ⟨task, hmem, hidx⟩ := htask
        exact tracked_of_task hgrow hmem hidx
      · refine absurd ⟨hsearch.1, hcan, e, he, hexp, by rw [hobj]; exact hi,
          fun task hmem hidx => ?_, ?_⟩ hkeep
        · exact htask ⟨task, hmem, hidx.trans hobj⟩
        · rw [hobj]
          exact hreq'
  · -- an unexpired entry is overwritten only if its index is not the client's
    have hget : h.hwcache.get now p.clientMac = some e.object :=
      Cache.get_eq_some.mpr ⟨e, he, by simpa using hexp, rfl⟩
    rw [← hobj] at hi
    exact absurd (hs.ownerOf_of_lookup hi) (hsearch.2 _ hget).1

theorem tracked_sender (hm : Move env now p t h₀ h h') (hs : h.Sound) (hacc : Accounted exempt h)
    (hkeep : t = .discover → ¬ Overwrites now h₀ p)
    (hi : h.available.mac.lookup i = some p.clientMac) {e : Item Int}
    (he : h.hwcache.peek p.clientMac = some e) (hobj : safeIntToUint64 e.object = i) :
    exempt i ∨ Tracked h' i p.clientMac := by
  have hgrow := hm.tasks
  cases hm with
  | note => exact .inr (.inl ⟨e, he, hobj⟩)
  | secure => exact .inr (.inl ⟨e, he, hobj⟩)
  | renew index d hdyn hget =>
    obtain ⟨e', he', -, rfl⟩ := Cache.get_eq_some.mp hget
    cases he.symm.trans he'
    exact .inr (tracked_lock hobj)
  | claim j htype hdyn hreq hown hfirst =>
    refine .inr (tracked_overwrite hs (hkeep htype) hfirst hgrow hi he hobj fun hreq' => ?_)
    cases hreq.symm.trans hreq'
    exact tracked_lock (safeIntToUint64_natCast _)
  | allot j htype hdyn hfree hreq hfirst =>
    refine .inr (tracked_overwrite hs (hkeep htype) hfirst hgrow hi he hobj fun hreq' => ?_)
    rw [← safeIntToUint64_natCast i] at hi
    exact absurd (hs.ownerOf_of_lookup hi) (hreq _ hreq')
  | evict => exact .inr (tracked_evict now _ he hobj)
  | regain =>
    obtain hentry | htask := tracked_evict now p.clientMac he hobj
    · exact .inr (.inl hentry)
    · exact .inr (.inr htask)
  | contest k e' _ _ hpeek =>
    cases he.symm.trans hpeek
    exact .inr (tracked_quarantine hobj)
  | fallback _ hdyn hping hpeek => cases he.symm.trans hpeek
  | retire => exact .inr (tracked_evict now _ he hobj)
  | pin position d _ hassigned =>
    obtain ⟨hexempt, hentry⟩ := hacc.static _ position hassigned
    rw [hentry e he, safeIntToUint64_natCast] at hobj
    exact .inl (hobj ▸ hexempt)

theorem tracked_old (hm : Move env now p t h₀ h h') (hs : h.Sound) (hacc : Accounted exempt h)
    (hkeep : t = .discover → ¬ Overwrites now h₀ p) (hi : h.available.mac.lookup i = some o) :
    exempt i ∨ Tracked h' i o := by
  obtain hexempt | ⟨e, he, hobj⟩ | ⟨task, htask, hidx⟩ := hacc.owned i o hi
  · exact .inl hexempt
  · by_cases ho : o = p.clientMac
    · subst ho
      exact tracked_sender hm hs hacc hkeep hi he hobj
    · exact .inr (.inl ⟨e, (hm.peek_ne ho).trans he, hobj⟩)
  · exact .inr (tracked_of_task hm.tasks htask hidx)

theorem tracked_granted (hm : Move env now p t h₀ h h') (hacc : Accounted exempt h)
    (hi : h'.available.mac.lookup i = some o) :
    h.available.mac.lookup i = some o ∨ exempt i ∨ Tracked h' i o := by
  cases hm with
  | note => exact .inl hi
  | renew => exact .inl hi
  | claim => exact .inl hi
  | fallback => exact .inl hi
  | evict =>
    rw [DHCPHandler.evict_available] at hi
    exact .inl hi
  | secure index hdyn hget hown =>
    obtain ⟨rfl, rfl⟩ | hold := DHCPHandler.lookup_reserve hi
    · obtain ⟨e, he, -, rfl⟩ := Cache.get_eq_some.mp hget
      exact .inr (.inr (.inl ⟨e, he, rfl⟩))
    · exact .inl hold
  | allot j =>
    obtain ⟨rfl, rfl⟩ | hold := DHCPPool.lookup_grant hi
    · exact .inr (.inr (.inl ⟨_, Cache.peek_set _ _ _ _ _, safeIntToUint64_natCast i⟩))
    · exact .inl hold
  | regain x hdyn hget hfree =>
    obtain ⟨rfl, rfl⟩ | hold := DHCPPool.lookup_grant hi
    · obtain ⟨e, he, -, rfl⟩ := Cache.get_eq_some.mp hget
      obtain hentry | htask := tracked_evict now p.clientMac he rfl
      · exact .inr (.inr (.inl hentry))
      · exact .inr (.inr (.inr htask))
    · exact .inl hold
  | contest k e _ hping hpeek =>
    obtain ⟨rfl, rfl⟩ | hold := DHCPHandler.lookup_reserve hi
    · exact .inr (.inr (tracked_quarantine rfl))
    · rw [DHCPHandler.evict_available] at hold
      exact .inl hold
  | retire x htype hget hown =>
    rw [DHCPHandler.evict_available] at hi
    obtain ⟨rfl, rfl⟩ | hold := DHCPHandler.lookup_reserve hi
    · obtain ⟨e, he, -, rfl⟩ := Cache.get_eq_some.mp hget
      exact .inr (.inr (tracked_evict now _ he rfl))
    · exact .inl hold
  | pin position d _ hassigned =>
    obtain ⟨rfl, rfl⟩ | hold := DHCPHandler.lookup_reserve hi
    · rw [safeIntToUint64_natCast]
      exact .inr (.inl (hacc.static _ position hassigned).1)
    · exact .inl hold

theorem static_entry (hm : Move env now p t h₀ h h') {position : BitVec 32}
    (hassigned : h.ipAssigned.lookup p.clientMac = some position)
    (hold : ∀ e, h.hwcache.peek p.clientMac = some e → e.object = position.toNat) {e : Item Int}
    (he : h'.hwcache.peek p.clientMac = some e) : e.object = position.toNat := by
  have hgone : ∀ h : DHCPHandler, (h.evict now p.clientMac).hwcache.peek p.clientMac ≠ some e := by
    intro h hpeek
    rw [DHCPHandler.peek_evict] at hpeek
    cases hpeek
  cases hm with
  | note => exact hold e he
  | secure => exact hold e he
  | renew index d hdyn => cases hdyn.symm.trans hassigned
  | claim j htype hdyn => cases hdyn.symm.trans hassigned
  | allot j htype hdyn => cases hdyn.symm.trans hassigned
  | fallback _ hdyn => cases hdyn.symm.trans hassigned
  | evict => exact absurd he (hgone h)
  | regain => exact absurd he (hgone h)
  | contest => exact absurd he (hgone h)
  | retire x => exact absurd he (hgone (h.quarantine now x))
  | pin position' d _ hassigned' =>
    cases hassigned.symm.trans hassigned'
    cases (Cache.peek_set _ _ _ _ _).symm.trans he
    rfl

theorem Accounted.move (hacc : Accounted exempt h) (hm : Move env now p t h₀ h h') (hs : h.Sound)
    (hkeep : t = .discover → ¬ Overwrites now h₀ p) : Accounted exempt h' := by
  refine ⟨fun i o hi => ?_, fun m position hassigned => ?_⟩
  · obtain hold | hnew := tracked_granted hm hacc hi
    · exact tracked_old hm hs hacc hkeep hold
    · exact hnew
  · rw [DHCPHandler.ipAssigned_of_settings hm.settings] at hassigned
    obtain ⟨hexempt, hentry⟩ := hacc.static m position hassigned
    refine ⟨hexempt, fun e he => ?_⟩
    by_cases hmac : m = p.clientMac
    · subst hmac
      exact static_entry hm hassigned hentry he
    · rw [hm.peek_ne hmac] at he
      exact hentry e he

end Moves

/-! ## The other events -/

theorem Accounted.purge {exempt : ℕ → Prop} {h : DHCPHandler} (hacc : Accounted exempt h)
    (now : Int) : Accounted exempt (h.purge now) := by
  rw [DHCPHandler.purge_eq]
  refine ⟨fun i o hi => ?_, fun m position hassigned => ?_⟩
  · obtain hexempt | ⟨e, he, hobj⟩ | ⟨task, htask, hidx⟩ := hacc.owned i o hi
    · exact .inl hexempt
    · by_cases hexp : e.expired now = true
      · -- the entry leaves and its index goes to a task
        have hmem := Cache.mem_deleteExpired.mpr ⟨e, he, hexp, rfl⟩
        refine .inr (.inr ⟨_, List.mem_append_right _ (List.mem_map_of_mem hmem), hobj⟩)
      · exact .inr (.inl ⟨e, Cache.peek_deleteExpired.mpr ⟨he, by simpa using hexp⟩, hobj⟩)
    · exact .inr (.inr ⟨task, List.mem_append_left _ htask, hidx⟩)
  · obtain ⟨hexempt, hentry⟩ := hacc.static m position hassigned
    exact ⟨hexempt, fun e he => hentry e (Cache.peek_deleteExpired.mp he).1⟩

theorem Accounted.fire {exempt : ℕ → Prop} {h : DHCPHandler} (hacc : Accounted exempt h)
    (hs : h.Sound) (now : Int) {k : ℕ} {task : Task} (htask : h.tasks[k]? = some task) :
    Accounted exempt (h.fire now k task) := by
  refine ⟨fun i o hi => ?_, hacc.static⟩
  -- the index of the task is free now
  have hne : i ≠ safeIntToUint64 task.index := by
    rintro rfl
    cases (hs.lookup_fire now k task).symm.trans hi
  rw [DHCPHandler.fire_lookup_ne hne] at hi
  obtain hexempt | ⟨e, he, hobj⟩ | ⟨task', htask', hidx⟩ := hacc.owned i o hi
  · exact .inl hexempt
  · exact .inr (.inl ⟨e, he, hobj⟩)
  · refine .inr (.inr ⟨task', DHCPHandler.mem_tasks_fire htask ?_ htask', hidx⟩)
    rintro rfl
    exact hne hidx.symm

/-! ## Whole runs -/

theorem accounted_init (cfg : ScopeConfig) :
    Accounted (fun i => ∃ e ∈ cfg.reservations, e.1 = i) (readConfig cfg) := by
  refine ⟨fun i o hi => .inl ?_, fun m position hassigned => ⟨?_, fun e he => ?_⟩⟩
  · have hlt := (readConfig_sound cfg).pool.owned_lt hi
    rw [readConfig_capacity] at hlt
    obtain ⟨hfree, -⟩ | ⟨e, he, hidx, -⟩ := readConfig_free cfg hlt
    · exact absurd hfree ((readConfig_sound cfg).pool.notMem_free hi)
    · exact ⟨e, he, hidx⟩
  · obtain ⟨a, ha, rfl⟩ := readConfig_assigned cfg hassigned
    exact ⟨_, List.mem_append_right _ (List.mem_map_of_mem ha), rfl⟩
  · cases (Cache.peek_empty _ _).symm.trans he

theorem Accounted.step {exempt : ℕ → Prop} {cfg : ScopeConfig} {w w' : World} {e : Event}
    (hacc : Accounted exempt w.handler) (hreg : w.Regular cfg) (hok : ¬ w.OverwritesExpired e)
    (hst : World.Stepped w e w') : Accounted exempt w'.handler := by
  cases hst with
  | dropped => exact hacc
  | handled p t env fuel g h answer hadmits _ hh =>
    have hkeep : t = .discover → ¬ Overwrites w.now w.handler p := by
      rintro rfl hover
      exact hok ⟨hadmits, hover⟩
    exact (Moves.invariant (Accounted exempt) (fun _ _ hm hs hacc => hacc.move hm hs hkeep)
      hh.moves hreg.sound hacc).2
  | tick => exact hacc
  | purge => exact hacc.purge w.now
  | fire k task htask => exact hacc.fire hreg.sound w.now htask

/-- In a run without such an overwriting, every index in use was configured away, is cached, or
is waiting to be freed. -/
theorem no_address_lost {cfg : ScopeConfig} {network : IPNet} {ipv4 : Option IPv4} {now : Int}
    {w : World}
    (hrun : World.RunsTo (fun w e => ¬ w.OverwritesExpired e) cfg network ipv4 now w)
    {i : ℕ} (hi : i < cfg.size) (hused : i ∉ w.handler.available.free) :
    (∃ a ∈ cfg.ipReserved, (cfg.position a).toNat = i) ∨
    (∃ e ∈ cfg.ipAssigned, (cfg.position e.2).toNat = i) ∨
    (∃ m e, w.handler.hwcache.peek m = some e ∧ e.object = i) ∨
    ∃ task ∈ w.handler.tasks, task.index = i := by
  obtain ⟨hreg, hacc⟩ := World.RunsTo.invariant
    (fun w => Accounted (fun i => ∃ e ∈ cfg.reservations, e.1 = i) w.handler) hrun
    (accounted_init cfg) (fun w e w' hreg hacc hok hst => hacc.step hreg hok hst)
  rw [← hreg.capacity] at hi
  obtain ⟨o, hown⟩ := hreg.sound.pool.exists_owner hi hused
  obtain ⟨e, he, rfl⟩ | ⟨e, he, hobj⟩ | ⟨task, htask, hidx⟩ := hacc.owned i o hown
  · rcases List.mem_append.mp he with he | he
    · obtain ⟨a, ha, rfl⟩ := List.mem_map.mp he
      exact .inl ⟨a, ha, rfl⟩
    · obtain ⟨b, hb, rfl⟩ := List.mem_map.mp he
      exact .inr (.inl ⟨b, hb, rfl⟩)
  · refine .inr (.inr (.inl ⟨o, e, he, ?_⟩))
    rw [← hobj, (hreg.offsets.cached o e he).safeIntToUint64_eq]
  · refine .inr (.inr (.inr ⟨task, htask, ?_⟩))
    rw [← hidx, (hreg.offsets.pending task htask).safeIntToUint64_eq]

/-- A client asks for 10.0.0.10, lets the offer expire and asks for it again before the purge. When
that offer has expired as well, the client asks for another address in vain: the pool is full. -/
theorem no_address_lost_sample : ∃ w, World.RunsTo (fun w e => ¬ w.OverwritesExpired e)
      (Sample.scope [] []) Sample.network none 0 w ∧ 0 ∉ w.handler.available.free ∧
    ((∃ a ∈ (Sample.scope [] []).ipReserved, ((Sample.scope [] []).position a).toNat = 0) ∨
      (∃ e ∈ (Sample.scope [] []).ipAssigned, ((Sample.scope [] []).position e.2).toNat = 0) ∨
      (∃ m e, w.handler.hwcache.peek m = some e ∧ e.object = (0 : ℕ)) ∨
      ∃ task ∈ w.handler.tasks, task.index = (0 : ℕ)) := by
  obtain ⟨w, hrun, hp⟩ := Sample.exists_runsTo (Sample.scope [] [])
    (fun w e => ¬ w.OverwritesExpired e)
    [Sample.send [2, 0, 0, 0, 0, 1] 1 (some 0x0a00000a#32) .discover, .tick 6000000000,
      Sample.send [2, 0, 0, 0, 0, 1] 2 (some 0x0a00000a#32) .discover,
      Sample.send [2, 0, 0, 0, 0, 2] 3 none .discover,
      Sample.send [2, 0, 0, 0, 0, 3] 4 none .discover, .tick 6000000000,
      Sample.send [2, 0, 0, 0, 0, 1] 5 (some 0x0a00000b#32) .discover]
    (fun w => decide (0 ∉ w.handler.available.free)) (fun _ _ => trivial) (by decide +kernel)
  have hrun' := hrun.mono fun _ _ hok => hok.2
  have hused : 0 ∉ w.handler.available.free := of_decide_eq_true hp
  exact ⟨w, hrun', hused, no_address_lost hrun' (by decide) hused⟩

/-- The same client asks for 10.0.0.11 instead: index 0 stays reserved for it for ever. -/
theorem overwritten_address_lost : ¬ ∀ (cfg : ScopeConfig) (network : IPNet)
    (ipv4 : Option IPv4) (now : Int) (w : World),
    World.RunsTo (fun _ _ => True) cfg network ipv4 now w →
    ∀ i < cfg.size, i ∉ w.handler.available.free →
      (∃ a ∈ cfg.ipReserved, (cfg.position a).toNat = i) ∨
      (∃ e ∈ cfg.ipAssigned, (cfg.position e.2).toNat = i) ∨
      (∃ m e, w.handler.hwcache.peek m = some e ∧ e.object = i) ∨
      ∃ task ∈ w.handler.tasks, task.index = i := by
  intro hclaim
  obtain ⟨w, hrun, hp⟩ := Sample.exists_run (Sample.scope [] [])
    [Sample.send [2, 0, 0, 0, 0, 1] 1 (some 0x0a00000a#32) .discover, .tick 6000000000,
      Sample.send [2, 0, 0, 0, 0, 1] 2 (some 0x0a00000b#32) .discover]
    (fun w => decide (0 ∉ w.handler.available.free) &&
      (w.handler.hwcache.items.entries.all (fun e => e.2.object != 0) &&
        w.handler.tasks.all (fun task => task.index != 0)))
    (fun _ _ => trivial) (by decide +kernel)
  simp only [Bool.and_eq_true, decide_eq_true_eq, List.all_eq_true, bne_iff_ne] at hp
  obtain ⟨hused, hcache, htasks⟩ := hp
  obtain ⟨a, ha, -⟩ | ⟨e, he, -⟩ | ⟨m, e, he, hobj⟩ | ⟨task, htask, hidx⟩ :=
    hclaim (Sample.scope [] []) Sample.network none 0 w hrun 0 (by decide) hused
  · cases ha
  · cases he
  · exact hcache _ (Cache.mem_entries_of_peek he) hobj
  · exact htasks task htask hidx

end StandaloneDHCP
