import Mathlib.Logic.Relation
import StandaloneDHCP.Server.ServeDHCP

/-! Everything one packet can do to a handler, as a relation. A move never frees an index,
never takes one from its owner and never touches the cache entry of another client. Each move
carries what the code has tested when it makes it, so the invariants of the server are proved
move by move and never unfold the message switch. -/
namespace StandaloneDHCP
open Lib
set_option autoImplicit false

/-- Some ping of the handling is answered. -/
def Env.Answered (env : Env) : Prop := ∃ k a, env.ping k a = true

/-- The pool index of the address in option 50. -/
def requestedIndex (h : DHCPHandler) (p : Packet) : Option ℕ :=
  ((p.options optionRequestedIPAddress).bind beUint32).map fun a => (a - h.start).toNat

/-- The pool has a free index, and option 50 is not too short to be read. -/
def DHCPHandler.CanAllot (h : DHCPHandler) (p : Packet) : Prop :=
  h.available.freeIPsRemaining ≠ 0 ∧ ∀ v ∈ p.options optionRequestedIPAddress, 4 ≤ v.length

/-- The client has no static address, and no visible entry with an index that is its own or
free. -/
def DHCPHandler.Searches (h : DHCPHandler) (now : Int) (p : Packet) : Prop :=
  h.ipAssigned.lookup p.clientMac = none ∧ ∀ x, h.hwcache.get now p.clientMac = some x →
    h.ownerOf x ≠ p.clientMac ∧ safeIntToUint64 x ∉ h.available.free

theorem searches_of_get {h : DHCPHandler} {now : Int} {p : Packet} {x : Int}
    (hdyn : h.ipAssigned.lookup p.clientMac = none)
    (hget : h.hwcache.get now p.clientMac = some x) (hown : h.ownerOf x ≠ p.clientMac)
    (hfree : safeIntToUint64 x ∉ h.available.free) : h.Searches now p := by
  refine ⟨hdyn, fun y hy => ?_⟩
  cases hget.symm.trans hy
  exact ⟨hown, hfree⟩

theorem searches_of_get_none {h : DHCPHandler} {now : Int} {p : Packet}
    (hdyn : h.ipAssigned.lookup p.clientMac = none)
    (hget : h.hwcache.get now p.clientMac = none) : h.Searches now p :=
  ⟨hdyn, fun _ hx => nomatch hget.symm.trans hx⟩

instance (h : DHCPHandler) (p : Packet) : Decidable (h.CanAllot p) :=
  @instDecidableAnd _ _ _ (Option.decidableForallMem _)

instance (h : DHCPHandler) (now : Int) (p : Packet) : Decidable (h.Searches now p) :=
  @instDecidableAnd _ _ _ (Option.decidableForallMem (h.hwcache.get now p.clientMac))

/-- The search of the DISCOVER chooses an index in `h`: nothing was touched yet, unless the
entry of the client has just left the cache. -/
structure Untouched (now : Int) (p : Packet) (h₀ h : DHCPHandler) : Prop where
  base : h = h₀ ∨ h = h₀.evict now p.clientMac
  searches : h₀.Searches now p
  canAllot : h₀.CanAllot p

/-- One effect of a packet `p` of type `t` on the handler; `h₀` is the handler before the packet. -/
inductive Move (env : Env) (now : Int) (p : Packet) (t : MessageType) (h₀ : DHCPHandler) :
    DHCPHandler → DHCPHandler → Prop
  | note (h : DHCPHandler) (x : Cache String Int) : Move env now p t h₀ h { h with xid := x }
  | renew (h : DHCPHandler) (index d : Int) (hdyn : h.ipAssigned.lookup p.clientMac = none)
      (hget : h.hwcache.get now p.clientMac = some index)
      (hown : h.ownerOf index = p.clientMac) :
      Move env now p t h₀ h (h.lock now p.clientMac index d)
  -- the ACK branch reserves the acknowledged index once more
  | secure (h : DHCPHandler) (index : Int) (hdyn : h.ipAssigned.lookup p.clientMac = none)
      (hget : h.hwcache.get now p.clientMac = some index)
      (hown : h.ownerOf index = p.clientMac) :
      Move env now p t h₀ h (h.reserve index p.clientMac)
  | claim (h : DHCPHandler) (i : ℕ) (htype : t = .discover)
      (hdyn : h.ipAssigned.lookup p.clientMac = none)
      (hreq : requestedIndex h p = some i) (hown : h.ownerOf i = p.clientMac)
      (hfirst : Untouched now p h₀ h) :
      Move env now p t h₀ h (h.lock now p.clientMac i (5 * second))
  | allot (h : DHCPHandler) (i : ℕ) (htype : t = .discover)
      (hdyn : h.ipAssigned.lookup p.clientMac = none)
      (hfree : i ∈ h.available.free)
      (hreq : ∀ j, requestedIndex h p = some j → h.ownerOf j ≠ p.clientMac)
      (hfirst : Untouched now p h₀ h) :
      Move env now p t h₀ h
        ({ h with available := h.available.grant i p.clientMac }.lock now p.clientMac i
          (5 * second))
  | evict (h : DHCPHandler) : Move env now p t h₀ h (h.evict now p.clientMac)
  -- the cached index had been freed: the entry leaves and the index is granted again
  | regain (h : DHCPHandler) (x : Int) (hdyn : h.ipAssigned.lookup p.clientMac = none)
      (hget : h.hwcache.get now p.clientMac = some x)
      (hfree : safeIntToUint64 x ∈ h.available.free) :
      Move env now p t h₀ h { h.evict now p.clientMac with
        available := h.available.grant (safeIntToUint64 x) p.clientMac }
  -- the probed index answers a ping. It is the client's own, or the fallback
  | contest (h : DHCPHandler) (k : ℕ) (e : Item Int) (htype : t = .discover)
      (hping : env.ping k (ipAdd h.start e.object) = true)
      (hpeek : h.hwcache.peek p.clientMac = some e)
      (hown : h.ownerOf e.object = p.clientMac ∨ e.object = 0) :
      Move env now p t h₀ h ((h.evict now p.clientMac).quarantine now e.object)
  -- after a conflict the search goes on with index 0, whoever owns it
  | fallback (h : DHCPHandler) (htype : t = .discover)
      (hdyn : h.ipAssigned.lookup p.clientMac = none)
      (hping : env.Answered) (hpeek : h.hwcache.peek p.clientMac = none) :
      Move env now p t h₀ h (h.lock now p.clientMac 0 (5 * second))
  | retire (h : DHCPHandler) (x : Int) (htype : t = .release ∨ t = .decline)
      (hget : h.hwcache.get now p.clientMac = some x) (hown : h.ownerOf x = p.clientMac) :
      Move env now p t h₀ h ((h.quarantine now x).evict now p.clientMac)
  | pin (h : DHCPHandler) (position : BitVec 32) (d : Int)
      (htype : t = .request ∨ t = .inform)
      (hassigned : h.ipAssigned.lookup p.clientMac = some position) :
      Move env now p t h₀ h
        ((h.lock now p.clientMac position.toNat d).reserve position.toNat p.clientMac)

abbrev Moves (env : Env) (now : Int) (p : Packet) (t : MessageType) (h₀ : DHCPHandler) :
    DHCPHandler → DHCPHandler → Prop :=
  Relation.ReflTransGen (Move env now p t h₀)

/-! ## What every move leaves alone -/

section Frame
variable {env : Env} {now : Int} {p : Packet} {t : MessageType} {h₀ h h' : DHCPHandler}

theorem reserve_pool (h : DHCPHandler) (index : Int) (mac : String) :
    (h.reserve index mac).available = h.available ∨
      ∃ i m, i ∈ h.available.free ∧ (h.reserve index mac).available = h.available.grant i m := by
  obtain ⟨hfree, heq⟩ | ⟨-, heq⟩ := h.reserve_cases index mac
  · rw [heq]
    exact .inr ⟨_, mac, hfree, rfl⟩
  · rw [heq]
    exact .inl rfl

theorem Move.pool (hm : Move env now p t h₀ h h') :
    h'.available = h.available ∨
      ∃ i m, i ∈ h.available.free ∧ h'.available = h.available.grant i m := by
  cases hm with
  | note => exact .inl rfl
  | renew => exact .inl rfl
  | claim => exact .inl rfl
  | fallback => exact .inl rfl
  | secure index => exact reserve_pool h index p.clientMac
  | allot i htype hdyn hfree => exact .inr ⟨i, p.clientMac, hfree, rfl⟩
  | evict => exact .inl (h.evict_available now p.clientMac)
  | regain x hdyn hget hfree => exact .inr ⟨_, p.clientMac, hfree, rfl⟩
  | contest k e =>
    rw [← h.evict_available now p.clientMac]
    exact reserve_pool (h.evict now p.clientMac) e.object FakeMac
  | retire x =>
    rw [DHCPHandler.evict_available]
    exact reserve_pool h x FakeMac
  | pin position d => exact reserve_pool (h.lock now p.clientMac _ d) position.toNat p.clientMac

theorem Move.settings (hm : Move env now p t h₀ h h') : h'.settings = h.settings := by
  cases hm with
  | evict => exact h.evict_settings now p.clientMac
  | regain => exact h.evict_settings now p.clientMac
  | contest => exact h.evict_settings now p.clientMac
  | retire x => exact (h.quarantine now x).evict_settings now p.clientMac
  | _ => rfl

theorem Move.tasks (hm : Move env now p t h₀ h h') : ∃ l, h'.tasks = h.tasks ++ l := by
  cases hm with
  | evict => exact ⟨_, h.evict_tasks now p.clientMac⟩
  | regain => exact ⟨_, h.evict_tasks now p.clientMac⟩
  | contest k e =>
    rw [DHCPHandler.quarantine_tasks, DHCPHandler.evict_tasks]
    exact ⟨_, List.append_assoc _ _ _⟩
  | retire x =>
    rw [DHCPHandler.evict_tasks, DHCPHandler.quarantine_tasks]
    exact ⟨_, List.append_assoc _ _ _⟩
  | _ => exact ⟨[], (List.append_nil _).symm⟩

theorem Move.peek_ne (hm : Move env now p t h₀ h h') {m : String} (hne : m ≠ p.clientMac) :
    h'.hwcache.peek m = h.hwcache.peek m := by
  have hdel := h.peek_evict_ne now hne
  cases hm with
  | note => rfl
  | secure => rfl
  | renew => exact Cache.peek_set_ne _ _ _ _ hne
  | claim => exact Cache.peek_set_ne _ _ _ _ hne
  | allot => exact Cache.peek_set_ne _ _ _ _ hne
  | fallback => exact Cache.peek_set_ne _ _ _ _ hne
  | pin => exact Cache.peek_set_ne _ _ _ _ hne
  | evict => exact hdel
  | regain => exact hdel
  | contest => exact hdel
  | retire x => exact (h.quarantine now x).peek_evict_ne now hne

theorem Move.sound (hm : Move env now p t h₀ h h') (hs : h.Sound) : h'.Sound := by
  have hstart := DHCPHandler.start_of_settings hm.settings
  have hrange := DHCPHandler.leaseRange_of_settings hm.settings
  obtain heq | ⟨i, m, hfree, heq⟩ := hm.pool
  · exact ⟨by rw [heq]; exact hs.pool, by rw [hrange, heq]; exact hs.range,
      by rw [hstart, heq]; exact hs.fits⟩
  · exact ⟨by rw [heq]; exact hs.pool.grant hfree m, by rw [hrange, heq]; exact hs.range,
      by rw [hstart, heq]; exact hs.fits⟩

theorem Move.owner (hm : Move env now p t h₀ h h') (hs : h.Sound) {i : ℕ} {m : String}
    (hi : h.available.mac.lookup i = some m) : h'.available.mac.lookup i = some m := by
  obtain heq | ⟨j, o, hfree, heq⟩ := hm.pool
  · rw [heq]
    exact hi
  · rw [heq]
    exact DHCPPool.lookup_grant_of_owned hs.pool hfree hi

theorem Move.owner_new (hm : Move env now p t h₀ h h') {i : ℕ} {m : String}
    (hi : h'.available.mac.lookup i = some m) :
    h.available.mac.lookup i = some m ∨ i ∈ h.available.free := by
  obtain heq | ⟨j, o, hfree, heq⟩ := hm.pool
  · rw [heq] at hi
    exact .inl hi
  · rw [heq] at hi
    obtain ⟨rfl, -⟩ | hold := DHCPPool.lookup_grant hi
    · exact .inr hfree
    · exact .inl hold

theorem Move.free (hm : Move env now p t h₀ h h') {i : ℕ} (hi : i ∈ h'.available.free) :
    i ∈ h.available.free := by
  obtain heq | ⟨j, o, -, heq⟩ := hm.pool
  · rwa [heq] at hi
  · rw [heq] at hi
    exact Finset.mem_of_mem_erase hi

theorem requestedIndex_lt {i : ℕ} (hi : requestedIndex h p = some i) : i < 2 ^ 32 := by
  obtain ⟨a, -, rfl⟩ := Option.map_eq_some_iff.mp hi
  exact (a - h.start).isLt

/-- A property of indexes that holds of whatever a packet can bring into the cache. -/
structure Admissible (env : Env) (now : Int) (p : Packet) (t : MessageType) (P : Int → Prop)
    (h₀ h : DHCPHandler) : Prop where
  asked : t = .discover → Untouched now p h₀ h → ∀ i : ℕ, requestedIndex h p = some i →
    h.ownerOf i = p.clientMac → P i
  fresh : ∀ i : ℕ, i ∈ h.available.free → P i
  fallback : env.Answered → P 0
  static : ∀ position, h.ipAssigned.lookup p.clientMac = some position → P position.toNat

theorem Move.indexes {P : Int → Prop} (hm : Move env now p t h₀ h h')
    (hadm : Admissible env now p t P h₀ h) (hall : h.Indexes P) : h'.Indexes P := by
  cases hm with
  | note => exact ⟨hall.cached, hall.pending⟩
  | secure => exact ⟨hall.cached, hall.pending⟩
  | renew index d hdyn hget => exact hall.lock now p.clientMac (hall.of_get hget) d
  | claim i htype hdyn hreq hown hfirst =>
    exact hall.lock now p.clientMac (hadm.asked htype hfirst i hreq hown) _
  | allot i htype hdyn hfree =>
    have hall' := hall.lock now p.clientMac (hadm.fresh i hfree) (5 * second)
    exact ⟨hall'.cached, hall'.pending⟩
  | fallback htype hdyn hping => exact hall.lock now p.clientMac (hadm.fallback hping) _
  | evict => exact hall.evict now p.clientMac
  | regain =>
    have hall' := hall.evict now p.clientMac
    exact ⟨hall'.cached, hall'.pending⟩
  | contest k e htype hping hpeek =>
    exact (hall.evict now p.clientMac).quarantine now (hall.cached _ e hpeek)
  | retire x htype hget => exact (hall.quarantine now (hall.of_get hget)).evict now p.clientMac
  | pin position d htype hassigned =>
    have hall' := hall.lock now p.clientMac (hadm.static position hassigned) d
    exact ⟨hall'.cached, hall'.pending⟩

theorem admissible_isOffset (hs : h.Sound) : Admissible env now p t IsOffset h₀ h where
  asked := fun _ _ _ hreq _ => isOffset_natCast (requestedIndex_lt hreq)
  fresh := by
    intro i hfree
    have hlt := hs.pool.free_lt hfree
    have hfits := hs.fits
    exact isOffset_natCast (by omega)
  fallback := fun _ => isOffset_natCast (by decide)
  static := fun position _ => isOffset_toNat position

theorem Moves.invariant (inv : DHCPHandler → Prop)
    (hstep : ∀ h h', Move env now p t h₀ h h' → h.Sound → inv h → inv h')
    (hm : Moves env now p t h₀ h h') (hs : h.Sound) (hi : inv h) : h'.Sound ∧ inv h' := by
  induction hm with
  | refl => exact ⟨hs, hi⟩
  | tail _ hlast ih => exact ⟨hlast.sound ih.1, hstep _ _ hlast ih.1 ih.2⟩

theorem Moves.sound (hm : Moves env now p t h₀ h h') (hs : h.Sound) : h'.Sound :=
  (hm.invariant (fun _ => True) (fun _ _ _ _ _ => trivial) hs trivial).1

theorem Moves.offsets (hm : Moves env now p t h₀ h h') (hs : h.Sound)
    (hoff : h.Indexes IsOffset) : h'.Indexes IsOffset :=
  (hm.invariant (DHCPHandler.Indexes IsOffset)
    (fun _ _ hstep hs hoff => hstep.indexes (admissible_isOffset hs) hoff) hs hoff).2

theorem Moves.settings (hm : Moves env now p t h₀ h h') : h'.settings = h.settings := by
  induction hm with
  | refl => rfl
  | tail _ hlast ih => exact hlast.settings.trans ih

theorem Moves.peek_ne (hm : Moves env now p t h₀ h h') {m : String} (hne : m ≠ p.clientMac) :
    h'.hwcache.peek m = h.hwcache.peek m := by
  induction hm with
  | refl => rfl
  | tail _ hlast ih => exact (hlast.peek_ne hne).trans ih

theorem Moves.owner (hm : Moves env now p t h₀ h h') (hs : h.Sound) {i : ℕ} {m : String}
    (hi : h.available.mac.lookup i = some m) : h'.available.mac.lookup i = some m :=
  (hm.invariant (fun h => h.available.mac.lookup i = some m)
    (fun _ _ hstep hs hi => hstep.owner hs hi) hs hi).2

theorem Moves.tasks (hm : Moves env now p t h₀ h h') : ∃ l, h'.tasks = h.tasks ++ l := by
  induction hm with
  | refl => exact ⟨[], (List.append_nil _).symm⟩
  | tail _ hlast ih =>
    obtain ⟨l, hl⟩ := ih
    obtain ⟨l', hl'⟩ := hlast.tasks
    exact ⟨l ++ l', by rw [hl', hl, List.append_assoc]⟩

end Frame

end StandaloneDHCP
