import StandaloneDHCP.Overrides.ApplyOverrides
import StandaloneDHCP.Server.ReplyOptions

/-! The options of an OFFER against those of the ACK that follows it. The two are built by
separate calls of `buildReplyOptions`, at different clock readings and with whatever the cache
holds by then; the shuffle of the DNS and router options reads the clock when the sixth byte of
the hardware address is zero. -/
namespace StandaloneDHCP
open Lib
set_option autoImplicit false

/-! ## The shuffle -/

theorem swapAt_self (array : List Bytes) (i : ℕ) : swapAt array i i = array := by
  unfold swapAt
  by_cases hi : i < array.length
  · simp [List.getElem?_eq_getElem hi]
  · have hle : array.length ≤ i := by omega
    rw [List.set_eq_of_length_le hle, List.set_eq_of_length_le hle]

theorem swapAt_perm {array : List Bytes} {i j : ℕ} (hi : i < array.length)
    (hj : j < array.length) : (swapAt array i j).Perm array := by
  have hswap := @Array.swap_perm _ array.toArray i j hi hj
  rw [List.swap_toArray, Array.perm_iff_toList_perm] at hswap
  simpa [swapAt, hi, hj] using hswap

theorem swapAt_at {array : List Bytes} {i j : ℕ} (hi : i < array.length) (hj : j < array.length)
    (hne : i ≠ j) : (swapAt array j i)[j]? = array[i]? := by
  simp [swapAt, hne, hi, hj]

/-- A loop none of whose swaps changes the array. -/
theorem shuffleLoop_fixed {draw : ℕ → ℕ → ℕ} {array : List Bytes} {n : ℕ}
    (hswap : ∀ k i, i < n → swapAt array (i + 1) (draw k (i + 2)) = array) :
    ∀ k, shuffleLoop draw n k array = array := by
  induction n with
  | zero =>
    intro k
    rfl
  | succ n ih =>
    intro k
    rw [shuffleLoop, hswap k n (Nat.lt_succ_self n)]
    exact ih (fun k' i hi => hswap k' i (by omega)) (k + 1)

theorem shuffleLoop_perm {draw : ℕ → ℕ → ℕ} (hdraw : ∀ k m, 0 < m → draw k m < m) {n : ℕ} :
    ∀ {array : List Bytes} (k : ℕ), n ≤ array.length - 1 →
      (shuffleLoop draw n k array).Perm array := by
  induction n with
  | zero =>
    intro array k _
    exact List.Perm.refl array
  | succ n ih =>
    intro array k hn
    have hlt := hdraw k (n + 2) (by omega)
    have hswap : (swapAt array (n + 1) (draw k (n + 2))).Perm array :=
      swapAt_perm (by omega) (by omega)
    have hrest := ih (k + 1) (show n ≤ (swapAt array (n + 1) (draw k (n + 2))).length - 1 by
      rw [hswap.length_eq]
      omega)
    exact hrest.trans hswap

/-- The draws that leave every element where it is, apart from one swap of `i` and `j`. -/
def swapOnce (i j : ℕ) (_ m : ℕ) : ℕ := if m = j + 1 then i else m - 1

theorem shuffleLoop_swapOnce {i j : ℕ} (hij : i < j) (array : List Bytes) :
    ∀ {n : ℕ} (k : ℕ), j ≤ n → shuffleLoop (swapOnce i j) n k array = swapAt array j i := by
  intro n
  induction n with
  | zero =>
    intro k hn
    omega
  | succ n ih =>
    intro k hn
    rw [shuffleLoop]
    by_cases hlast : n + 1 = j
    · subst hlast
      rw [swapOnce, if_pos rfl]
      apply shuffleLoop_fixed
      intro k' i' hi'
      rw [swapOnce, if_neg (by omega)]
      exact swapAt_self _ _
    · have hother : swapOnce i j k (n + 2) = n + 1 := by
        rw [swapOnce, if_neg (by omega)]
        omega
      rw [hother, swapAt_self]
      exact ih (k + 1) (by omega)

theorem exists_four {a : Bytes} (hlen : 4 ≤ a.length) :
    ∃ w x y z rest, a = w :: x :: y :: z :: rest := by
  rcases a with _ | ⟨w, _ | ⟨x, _ | ⟨y, _ | ⟨z, rest⟩⟩⟩⟩
  · simp at hlen
  · simp at hlen
  · simp at hlen
  · simp at hlen
  · exact ⟨w, x, y, z, rest, rfl⟩

theorem length_of_mem_addressGroups {a g : Bytes} (hg : g ∈ addressGroups a) : g.length = 4 := by
  fun_induction addressGroups a with
  | case1 w x y z rest ih =>
    obtain rfl | hrest := List.mem_cons.mp hg
    · rfl
    · exact ih hrest
  | case2 => simp at hg

theorem addressGroups_flatten {groups : List Bytes} (hlen : ∀ g ∈ groups, g.length = 4) :
    addressGroups groups.flatten = groups := by
  induction groups with
  | nil => rfl
  | cons g groups ih =>
    obtain ⟨w, x, y, z, rfl⟩ := List.length_eq_four.mp (hlen g List.mem_cons_self)
    have hrest := ih fun g' hg' => hlen g' (List.mem_cons_of_mem _ hg')
    simp [addressGroups, hrest]

theorem length_flatten_addressGroups (a : Bytes) :
    (addressGroups a).flatten.length = 4 * (a.length / 4) := by
  fun_induction addressGroups a with
  | case1 w x y z rest ih =>
    simp only [List.flatten_cons, List.length_append, List.length_cons, List.length_nil, ih]
    omega
  | case2 a hshort =>
    have hlen : a.length < 4 := by
      by_contra hlong
      obtain ⟨w, x, y, z, rest, rfl⟩ := exists_four (Nat.le_of_not_lt hlong)
      exact hshort w x y z rest rfl
    rw [List.flatten_nil, List.length_nil]
    omega

/-- All complete addresses of an option value are the same one. -/
def Alike (value : Bytes) : Prop :=
  ∀ g ∈ addressGroups value, ∀ g' ∈ addressGroups value, g = g'

section Shuffle
variable {env env' : ReplyEnv}

theorem shuffleIP_seeded (hrandom : env'.random = env.random) {seed : Int} (hseed : seed ≠ 0)
    (value : Bytes) : shuffleIP env' value seed = shuffleIP env value seed := by
  simp only [shuffleIP, shuffleNetIP, if_neg hseed, hrandom]

theorem shuffleIP_alike {value : Bytes} (halike : Alike value) (seed : Int) :
    shuffleIP env value seed = (addressGroups value).flatten := by
  simp only [shuffleIP, shuffleNetIP]
  congr 1
  apply shuffleLoop_fixed
  intro k i hi
  have hdraw := env.random.intn_lt (if seed = 0 then env.unixNano else seed) k (i + 2) (by omega)
  -- both positions of the swap are inside the array
  have hperm := swapAt_perm (show i + 1 < (addressGroups value).length by omega)
    (hdraw.trans_le (by omega))
  refine List.ext_getElem hperm.length_eq ?_
  intro n hn hn'
  exact halike _ (hperm.mem_iff.mp (List.getElem_mem hn)) _ (List.getElem_mem hn')

/-- Trailing bytes are dropped. -/
theorem length_shuffleIP (value : Bytes) (seed : Int) :
    (shuffleIP env value seed).length = 4 * (value.length / 4) := by
  rw [← length_flatten_addressGroups]
  exact (shuffleLoop_perm (env.random.intn_lt _) 0 (Nat.le_refl _)).flatten.length_eq

end Shuffle

/-- Seeded with 2 the source swaps `i` and `j`, with any other seed nothing. -/
def swapSource {i j : ℕ} (hij : i < j) : RandSource where
  intn seed k m := if seed = 2 then swapOnce i j k m else m - 1
  intn_lt seed k m hm := by
    unfold swapOnce
    split <;> try split
    all_goals omega

/-- Two addresses that differ come out in another order for some source and two clock readings. -/
theorem shuffleIP_clock {value : Bytes} (hdiffer : ¬ Alike value) : ∃ random : RandSource,
    ∀ env env' : ReplyEnv, env.random = random → env'.random = random →
      env.unixNano = 1 → env'.unixNano = 2 → shuffleIP env value 0 ≠ shuffleIP env' value 0 := by
  have hpair : ∃ i j, i < j ∧ j < (addressGroups value).length ∧
      (addressGroups value)[i]? ≠ (addressGroups value)[j]? := by
    simp only [Alike, not_forall] at hdiffer
    obtain ⟨g, hg, g', hg', hne⟩ := hdiffer
    obtain ⟨i, hi, rfl⟩ := List.mem_iff_getElem.mp hg
    obtain ⟨j, hj, rfl⟩ := List.mem_iff_getElem.mp hg'
    obtain hlt | heq | hlt := Nat.lt_trichotomy i j
    · exact ⟨i, j, hlt, hj, by simpa [hi, hj] using hne⟩
    · subst heq
      exact absurd rfl hne
    · exact ⟨j, i, hlt, hi, by simpa [hi, hj] using Ne.symm hne⟩
  obtain ⟨i, j, hij, hj, hne⟩ := hpair
  refine ⟨swapSource hij, ?_⟩
  intro env env' hrandom hrandom' hnow hnow' heq
  have hfirst : shuffleIP env value 0 = (addressGroups value).flatten := by
    simp only [shuffleIP, shuffleNetIP, if_pos, hrandom, hnow]
    congr 1
    apply shuffleLoop_fixed
    intro k n _
    exact swapAt_self _ _
  have hsecond : shuffleIP env' value 0 = (swapAt (addressGroups value) j i).flatten := by
    simp only [shuffleIP, shuffleNetIP, if_pos, hrandom', hnow']
    congr 1
    exact shuffleLoop_swapOnce hij _ 0 (by omega)
  have hlen : ∀ g ∈ addressGroups value, g.length = 4 := fun g hg => length_of_mem_addressGroups hg
  have hlen' : ∀ g ∈ swapAt (addressGroups value) j i, g.length = 4 :=
    fun g hg => hlen g ((swapAt_perm hj (by omega)).mem_iff.mp hg)
  have hgroups := congrArg addressGroups (hfirst.symm.trans (heq.trans hsecond))
  rw [addressGroups_flatten hlen, addressGroups_flatten hlen'] at hgroups
  have hat := congrArg (·[j]?) hgroups
  simp only [swapAt_at (show i < _ by omega) hj (Nat.ne_of_lt hij)] at hat
  exact hne hat.symm

/-! ## The option sets -/

/-- The map `buildReplyOptions` hands to `ApplyOptionOverrides`. -/
def shuffledOptions (env : ReplyEnv) (baseOptions : Options) (seed : UInt8) : Options :=
  fun key => (baseOptions key).map fun value =>
    if isShuffled key then shuffleIP env value seed.toNat else value

theorem buildReplyOptions_of_mirrors {env : ReplyEnv} {s : OverrideState} {p : Packet}
    {seed : UInt8} (hseed : p.chaddr[5]? = some seed) (hmirrors : s.Mirrors)
    (henv : env.applyOptionOverrides = s.overrideOptions) (baseOptions : Options)
    (networkIP clientMac : String) :
    buildReplyOptions env baseOptions p networkIP clientMac =
      some (OverrideTable.overrideOptions s.db (shuffledOptions env baseOptions seed)
        networkIP clientMac) := by
  rw [← OverrideState.overrideOptions_of_mirrors hmirrors, ← henv, buildReplyOptions, hseed]
  rfl

/-- What the stored lists say about an option code, whatever the handler's own options are. -/
def storedOverride (db : OverrideTable) (networkIP clientMac : String) (key : UInt8) :
    Option Bytes :=
  (lookupLast (converted (db.storedOptions .mac clientMac)) key).or
    (lookupLast (converted (db.storedOptions .network networkIP)) key)

theorem overrideOptions_apply (db : OverrideTable) (options : Options)
    (networkIP clientMac : String) (key : UInt8) :
    db.overrideOptions options networkIP clientMac key =
      (storedOverride db networkIP clientMac key).or (options key) := by
  rw [OverrideTable.overrideOptions, overlay_apply, overlay_apply, storedOverride, Option.or_assoc]

theorem mirrors_init (db : OverrideTable) : (OverrideState.init db).Mirrors := by
  intro key v hv
  simp [OverrideState.init] at hv

section Agreement
variable (db : OverrideTable) (baseOptions : Options) (chaddr : Bytes)
variable (networkIP clientMac : String)

/-- Any two replies to the client carry the same options as long as the database holds `db`. -/
def RepliesAgree : Prop :=
  ∀ (env env' : ReplyEnv) (s s' : OverrideState) (p q : Packet),
    env.random = env'.random → s.Mirrors → s'.Mirrors → s.db = db → s'.db = db →
    env.applyOptionOverrides = s.overrideOptions →
    env'.applyOptionOverrides = s'.overrideOptions → p.chaddr = chaddr → q.chaddr = chaddr →
    buildReplyOptions env baseOptions p networkIP clientMac =
      buildReplyOptions env' baseOptions q networkIP clientMac

/-- The clock is not read, or what it shuffles is overridden or looks the same in every order. -/
def ClockFree : Prop :=
  chaddr[5]? ≠ some 0 ∨ ∀ key, isShuffled key = true →
    (storedOverride db networkIP clientMac key).isSome = true ∨
      ∀ value, baseOptions key = some value → Alike value

variable {db baseOptions chaddr networkIP clientMac}

theorem shuffledOptions_clockFree {env env' : ReplyEnv} (hrandom : env'.random = env.random)
    {seed : UInt8} (hseed : chaddr[5]? = some seed)
    (hfree : ClockFree db baseOptions chaddr networkIP clientMac) (key : UInt8) :
    (storedOverride db networkIP clientMac key).or (shuffledOptions env' baseOptions seed key) =
      (storedOverride db networkIP clientMac key).or
        (shuffledOptions env baseOptions seed key) := by
  cases hstored : storedOverride db networkIP clientMac key with
  | some value => rfl
  | none =>
    simp only [Option.none_or, shuffledOptions]
    cases hbase : baseOptions key with
    | none => rfl
    | some value =>
      cases hkey : isShuffled key with
      | false => rfl
      | true =>
        simp only [Option.map_some, if_true, Option.some.injEq]
        obtain hne | hall := hfree
        · have hpos : (seed.toNat : Int) ≠ 0 := by
            intro hzero
            have hbyte : seed.toNat = (0 : UInt8).toNat := by simpa using hzero
            exact hne (hseed.trans (congrArg some (UInt8.toNat_inj.mp hbyte)))
          exact shuffleIP_seeded hrandom hpos value
        · obtain hsome | halike := hall key hkey
          · rw [hstored] at hsome
            cases hsome
          · rw [shuffleIP_alike (halike value hbase), shuffleIP_alike (halike value hbase)]

/-- The OFFER and the ACK carry the same options for exactly the clients and option sets for
which the clock makes no difference. -/
theorem reply_options_agree_iff (hlen : 6 ≤ chaddr.length) :
    RepliesAgree db baseOptions chaddr networkIP clientMac ↔
      ClockFree db baseOptions chaddr networkIP clientMac := by
  have hseed : chaddr[5]? = some chaddr[5] := List.getElem?_eq_getElem (by omega)
  constructor
  · intro hagree
    by_contra hclock
    simp only [ClockFree, not_or, not_forall] at hclock
    obtain ⟨hzero, key, hkey, hstored, value, hbase, hdiffer⟩ := hclock
    rw [not_not] at hzero
    rw [Option.not_isSome_iff_eq_none] at hstored
    obtain ⟨random, hclock⟩ := shuffleIP_clock hdiffer
    have hmirrors := mirrors_init db
    let env (now : Int) : ReplyEnv :=
      ⟨random, now, RangeOrder.ascending, (OverrideState.init db).overrideOptions⟩
    let p : Packet := ⟨chaddr, 0, 0, 0, fun _ => none⟩
    have heq := hagree (env 1) (env 2) _ _ p p rfl hmirrors hmirrors rfl rfl rfl rfl rfl rfl
    rw [buildReplyOptions_of_mirrors hzero hmirrors rfl,
      buildReplyOptions_of_mirrors hzero hmirrors rfl] at heq
    have hat := congrFun (Option.some.inj heq) key
    rw [overrideOptions_apply, overrideOptions_apply] at hat
    simp only [OverrideState.init, hstored, Option.none_or, shuffledOptions, hbase, hkey,
      Option.map_some, if_true, Option.some.injEq] at hat
    exact hclock (env 1) (env 2) rfl rfl rfl rfl hat
  · rintro hfree env env' s s' p q hrandom hmirrors hmirrors' rfl hdb henv henv' rfl hq
    have hseed' : q.chaddr[5]? = some p.chaddr[5] := by rw [hq, hseed]
    rw [buildReplyOptions_of_mirrors hseed hmirrors henv,
      buildReplyOptions_of_mirrors hseed' hmirrors' henv', hdb]
    congr 1
    funext key
    rw [overrideOptions_apply, overrideOptions_apply]
    exact shuffledOptions_clockFree hrandom hseed hfree key

end Agreement

/-- Two DNS servers. -/
def twoServers : Options := fun key =>
  if key = optionDomainNameServer then some [8, 8, 8, 8, 1, 1, 1, 1] else none

/-- The sixth byte is not zero in the one case; in the other the client has servers of its own. -/
theorem reply_options_agree_sample :
    RepliesAgree ∅ twoServers [2, 0, 0, 0, 0, 1] "10.0.0.0" "02:00:00:00:00:01" ∧
    RepliesAgree (OverrideTable.saveOptionOverride ∅ .mac "02:00:00:00:00:00" 0 1
      [⟨6, "9.9.9.9", "ip"⟩]) twoServers [2, 0, 0, 0, 0, 0] "10.0.0.0" "02:00:00:00:00:00" := by
  refine ⟨(reply_options_agree_iff (by decide)).mpr (.inl (by decide)),
    (reply_options_agree_iff (by decide)).mpr (.inr ?_)⟩
  intro key hkey
  obtain rfl | rfl : key = 6 ∨ key = 3 := by
    simpa [isShuffled, optionDomainNameServer, optionRouter] using hkey
  · exact .inl (by decide +kernel)
  · refine .inr ?_
    intro value hvalue
    simp [twoServers, optionDomainNameServer] at hvalue

/-- The sixth byte is zero, and the source draws another place at the second reading. -/
theorem clock_reorders_servers : ¬ ∀ (db : OverrideTable) (baseOptions : Options) (chaddr : Bytes)
    (networkIP clientMac : String), 6 ≤ chaddr.length →
    RepliesAgree db baseOptions chaddr networkIP clientMac := by
  intro hagree
  let random : RandSource := ⟨fun seed _ n => seed.toNat % n, fun _ _ _ hn => Nat.mod_lt _ hn⟩
  let env (now : Int) : ReplyEnv :=
    ⟨random, now, RangeOrder.ascending, (OverrideState.init ∅).overrideOptions⟩
  let p : Packet := ⟨[2, 0, 0, 0, 0, 0], 0, 0, 0, fun _ => none⟩
  have hmirrors := mirrors_init ∅
  have heq := hagree ∅ twoServers p.chaddr "10.0.0.0" "02:00:00:00:00:00" (by decide) (env 1)
    (env 2) _ _ p p rfl hmirrors hmirrors rfl rfl rfl rfl rfl rfl
  have hfirst : (buildReplyOptions (env 1) twoServers p "10.0.0.0" "02:00:00:00:00:00").map (· 6) =
      some (some [8, 8, 8, 8, 1, 1, 1, 1]) := by decide +kernel
  have hsecond : (buildReplyOptions (env 2) twoServers p "10.0.0.0" "02:00:00:00:00:00").map (· 6) =
      some (some [1, 1, 1, 1, 8, 8, 8, 8]) := by decide +kernel
  rw [heq, hsecond] at hfirst
  exact absurd hfirst (by decide)

end StandaloneDHCP
