import StandaloneDHCP.Server.HandlerRun

/-! Which network of an interface serves a packet. The three tests of the detection loop come down
to one condition on the relay address and the client address; the loop stops at the first network
that meets it. -/
namespace StandaloneDHCP
open Lib
set_option autoImplicit false

/-- The network serves a packet with `giaddr` and `ciaddr`. -/
def Network.Serves (v : Network) (giaddr ciaddr : IPv4) : Prop :=
  v.network.contains ciaddr = true ∨ (giaddr ≠ 0#32 ∧ v.network.contains giaddr = true) ∨
    (v.dhcpHandler.layer2 = true ∧ giaddr = 0#32 ∧ ciaddr = 0#32)

theorem Network.selects_iff (v : Network) (p : Packet) :
    v.selects p = true ↔ v.Serves p.giaddr p.ciaddr := by
  unfold Network.selects Network.Serves
  by_cases hc : v.network.contains p.ciaddr = true
  · simp [hc]
  · by_cases hg : p.giaddr = 0#32
    · simp [hg, hc]
    · simp [hg, hc]

/-- The network at which the detection loop breaks. -/
def selectNetwork (networks : List Network) (p : Packet) : Option Network :=
  networks.find? fun v => v.selects p

theorem selectNetwork_eq_some {networks : List Network} {p : Packet} {v : Network} :
    selectNetwork networks p = some v ↔ v.Serves p.giaddr p.ciaddr ∧
      ∃ before after, networks = before ++ v :: after ∧
        ∀ u ∈ before, ¬ u.Serves p.giaddr p.ciaddr := by
  simp only [selectNetwork, List.find?_eq_some_iff_append, ← Network.selects_iff, Bool.not_eq_true,
    Bool.not_eq_true']

theorem selectNetwork_eq_none {networks : List Network} {p : Packet} :
    selectNetwork networks p = none ↔ ∀ v ∈ networks, ¬ v.Serves p.giaddr p.ciaddr := by
  simp only [selectNetwork, List.find?_eq_none, ← Network.selects_iff]

section Serve
variable (env : Env) (fuel : ℕ) (now : Int) (g : Globals) (p : Packet) (t : MessageType)
  (answer : Answer)

theorem serveNetworks_of_first {before after : List Network} {v : Network}
    (hv : v.Serves p.giaddr p.ciaddr) (hno : ∀ u ∈ before, ¬ u.Serves p.giaddr p.ciaddr) :
    serveNetworks env fuel now g p t answer (before ++ v :: after) =
      (serveHandler env fuel now g v.dhcpHandler v.network.text p t answer).map fun r =>
        (r.1, before ++ { v with dhcpHandler := r.2.1 } :: after, r.2.2) := by
  induction before with
  | nil =>
    rw [List.nil_append, serveNetworks, if_pos ((v.selects_iff p).mpr hv)]
    rfl
  | cons u before ih =>
    have hu : ¬ u.selects p = true := fun h => hno u List.mem_cons_self ((u.selects_iff p).mp h)
    have hrest := ih fun u' hu' => hno u' (List.mem_cons_of_mem u hu')
    rw [List.cons_append, serveNetworks, if_neg hu, hrest, Option.map_map]
    rfl

theorem serveNetworks_of_none {networks : List Network}
    (hno : ∀ v ∈ networks, ¬ v.Serves p.giaddr p.ciaddr) :
    serveNetworks env fuel now g p t answer networks = some (g, networks, answer) := by
  induction networks with
  | nil => rfl
  | cons v rest ih =>
    have hv : ¬ v.selects p = true := fun h => hno v List.mem_cons_self ((v.selects_iff p).mp h)
    have hrest := ih fun v' hv' => hno v' (List.mem_cons_of_mem v hv')
    rw [serveNetworks, if_neg hv, hrest]
    rfl

end Serve

/-! ## The order of the sections -/

def IPNet.Disjoint (n n' : IPNet) : Prop := ∀ a, ¬ (n.contains a = true ∧ n'.contains a = true)

/-- The address that decides which network serves the packet. -/
theorem Network.serves_iff_contains {giaddr ciaddr : IPv4}
    (hone : Xor (giaddr ≠ 0#32) (ciaddr ≠ 0#32)) {v : Network}
    (hzero : v.network.contains 0#32 = false) :
    v.Serves giaddr ciaddr ↔
      v.network.contains (if giaddr = 0#32 then ciaddr else giaddr) = true := by
  unfold Network.Serves
  rcases hone with ⟨hg, hc⟩ | ⟨hc, hg⟩
  · rw [not_not.mp hc, if_neg hg]
    simp [hg, hzero]
  · rw [not_not.mp hg, if_pos rfl]
    simp [hc]

theorem find?_perm_of_unique {α : Type} {q : α → Bool} {l l' : List α} (hperm : l'.Perm l)
    (huniq : ∀ a ∈ l, ∀ b ∈ l, q a = true → q b = true → a = b) : l'.find? q = l.find? q := by
  cases hfind : l.find? q with
  | none =>
    rw [List.find?_eq_none] at hfind ⊢
    exact fun a ha => hfind a (hperm.mem_iff.mp ha)
  | some a =>
    have hmem := List.mem_of_find?_eq_some hfind
    have hq := List.find?_some hfind
    cases hfind' : l'.find? q with
    | none =>
      exact absurd hq (List.find?_eq_none.mp hfind' a (hperm.mem_iff.mpr hmem))
    | some b =>
      have hmem' := hperm.mem_iff.mp (List.mem_of_find?_eq_some hfind')
      rw [huniq b hmem' a hmem (List.find?_some hfind') hq]

theorem eq_of_pairwise_disjoint {networks : List Network}
    (hdisj : networks.Pairwise fun v v' => v.network.Disjoint v'.network) {a : IPv4}
    {v v' : Network} (hv : v ∈ networks) (hv' : v' ∈ networks)
    (ha : v.network.contains a = true) (ha' : v'.network.contains a = true) : v = v' := by
  by_contra hne
  have hsymm : Std.Symm fun v v' : Network => v.network.Disjoint v'.network :=
    ⟨fun _ _ h b hb => h b hb.symm⟩
  exact hdisj.forall hv hv' hne a ⟨ha, ha'⟩

/-- The first network that serves the packet is the one that handles it; without one nothing
changes and nothing is sent. For disjoint networks the order of the sections does not matter. -/
theorem scope_selection (env : Env) (fuel : ℕ) (now : Int) (g : Globals) (p : Packet)
    (t : MessageType) (answer : Answer) (networks : List Network) :
    (∀ before v after, networks = before ++ v :: after → v.Serves p.giaddr p.ciaddr →
      (∀ u ∈ before, ¬ u.Serves p.giaddr p.ciaddr) →
      selectNetwork networks p = some v ∧
      serveNetworks env fuel now g p t answer networks =
        (serveHandler env fuel now g v.dhcpHandler v.network.text p t answer).map fun r =>
          (r.1, before ++ { v with dhcpHandler := r.2.1 } :: after, r.2.2)) ∧
    ((∀ v ∈ networks, ¬ v.Serves p.giaddr p.ciaddr) →
      selectNetwork networks p = none ∧
      serveNetworks env fuel now g p t answer networks = some (g, networks, answer)) ∧
    (networks.Pairwise (fun v v' => v.network.Disjoint v'.network) →
      Xor (p.giaddr ≠ 0#32) (p.ciaddr ≠ 0#32) →
      (∀ v ∈ networks, v.network.contains 0#32 = false) →
      ∀ networks', networks'.Perm networks →
        selectNetwork networks' p = selectNetwork networks p) := by
  refine ⟨?_, ?_, ?_⟩
  · rintro before v after rfl hv hno
    refine ⟨selectNetwork_eq_some.mpr ⟨hv, before, after, rfl, hno⟩, ?_⟩
    exact serveNetworks_of_first env fuel now g p t answer hv hno
  · intro hno
    exact ⟨selectNetwork_eq_none.mpr hno, serveNetworks_of_none env fuel now g p t answer hno⟩
  · intro hdisj hone hzero networks' hperm
    refine find?_perm_of_unique hperm fun v hv v' hv' hsel hsel' => ?_
    have hin := (Network.serves_iff_contains hone (hzero v hv)).mp ((v.selects_iff p).mp hsel)
    have hin' := (Network.serves_iff_contains hone (hzero v' hv')).mp ((v'.selects_iff p).mp hsel')
    exact eq_of_pairwise_disjoint hdisj hv hv' hin hin'

namespace Sample

def near : Network := ⟨network, readConfig (scope [] [])⟩
def far : Network := ⟨⟨some 0x0a000100#32, some 0xffffff00#32⟩, readConfig (scope [] [])⟩

/-- A DISCOVER that a relay in the second network passes on. -/
def relayed : Packet := { packet [2, 0, 0, 0, 0, 1] 1 none with giaddr := 0x0a000101#32 }

theorem near_disjoint_far : near.network.Disjoint far.network := by
  rintro a ⟨hnear, hfar⟩
  have h₁ := eq_of_beq hnear
  have h₂ := eq_of_beq hfar
  exact absurd (h₁.trans h₂.symm) (by decide)

end Sample

theorem scope_selection_sample :
    selectNetwork [Sample.near, Sample.far] Sample.relayed = some Sample.far ∧
    selectNetwork [Sample.far, Sample.near] Sample.relayed = some Sample.far := by
  obtain ⟨hfirst, -, hperm⟩ := scope_selection (Sample.env []) 3 0 Globals.init Sample.relayed
    .discover {} [Sample.near, Sample.far]
  have hfar : selectNetwork [Sample.near, Sample.far] Sample.relayed = some Sample.far := by
    refine (hfirst [Sample.near] Sample.far [] rfl (.inr (.inl ⟨by decide, by decide⟩)) ?_).1
    intro u hu
    cases List.mem_singleton.mp hu
    rw [← Network.selects_iff]
    decide
  refine ⟨hfar, (hperm ?_ ?_ ?_ _ (List.Perm.swap _ _ [])).trans hfar⟩
  · exact List.pairwise_pair.mpr Sample.near_disjoint_far
  · exact .inl ⟨by decide, by decide⟩
  · intro v hv
    rcases List.mem_cons.mp hv with rfl | hv
    · decide
    · cases List.mem_singleton.mp hv
      decide

end StandaloneDHCP
