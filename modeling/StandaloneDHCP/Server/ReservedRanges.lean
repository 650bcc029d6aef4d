import StandaloneDHCP.Lib.Counting
import StandaloneDHCP.Server.Config
import StandaloneDHCP.Wire.DottedText

/-! The text of `ip_reserved`: `IPsFromRange` and `ExcludeIP` (`utils.go`). The loop of
`IPsFromRange` over one range has no bound of its own: it steps the start address, a 16-byte
string, until it equals the end. `fuel` is the number of rounds that each run of it may make, and
the result is `none` if one of them needs more. -/
namespace StandaloneDHCP
open Lib
set_option autoImplicit false

/-! ## The functions -/

/-- `net.ParseIP`; `nil` is the empty byte string. -/
def netParseIP (s : List Char) : Bytes := (parseIP (String.ofList s)).getD []

/-- The loop over one range. `sharedutils.Inc` works on `start` in place. -/
def rangeIPs (fuel : ℕ) (start stop : Bytes) : Option (List Bytes) :=
  collectUntil increment (ipEqual · stop) (fun ip => netParseIP (ipText ip).toList) fuel start

def itemIPs (fuel : ℕ) (rangeip : List Char) : Option (List Bytes) :=
  match rangeip.splitOn '-' with
  | [] => some []
  | [ip] => some [netParseIP ip]
  | start :: stop :: _ => rangeIPs fuel (netParseIP start) (netParseIP stop)

def ipsLoop (fuel : ℕ) : List (List Char) → List Bytes → Option (List Bytes)
  | [], iplist => some iplist
  | rangeip :: rest, iplist =>
    match itemIPs fuel rangeip with
    | none => none
    | some ips => ipsLoop fuel rest (iplist ++ ips)

def ipsFromRange (fuel : ℕ) (text : String) : Option (List Bytes × ℕ) :=
  (ipsLoop fuel (text.toList.splitOn ',') []).map fun iplist => (iplist, iplist.length)

/-- The loop of `ExcludeIP`. `none` is the panic of `binary.BigEndian.Uint32` on the `nil` that
`To4` returns for an IPv6 address. -/
def excludeLoop (start : IPv4) : List Bytes → DHCPPool → Option DHCPPool
  | [], available => some available
  | excludeIP :: rest, available =>
    if excludeIP = [] then excludeLoop start rest available
    else
      match (to4 excludeIP).bind beUint32 with
      | none => none
      | some a =>
        excludeLoop start rest (available.reserveIPIndex (a - start).toNat FakeMac).1

/-- `ExcludeIP` on the text; `excludeIP` is its loop on the addresses. -/
def excludeText (fuel : ℕ) (start : IPv4) (available : DHCPPool) (text : String) :
    Option DHCPPool :=
  (ipsFromRange fuel text).bind fun r => excludeLoop start r.1 available

example : (ipsFromRange 3 "192.168.1.1,10.0.0.254-10.0.1.0").map Prod.snd = some 4 := by
  decide +kernel

/-! ## When the loops return -/

theorem ipsLoop_isSome_iff (fuel : ℕ) (items : List (List Char)) (iplist : List Bytes) :
    (ipsLoop fuel items iplist).isSome = true ↔
      ∀ item ∈ items, (itemIPs fuel item).isSome = true := by
  induction items generalizing iplist with
  | nil => simp [ipsLoop]
  | cons item items ih =>
    rw [ipsLoop, List.forall_mem_cons]
    cases itemIPs fuel item with
    | none => simp
    | some ips => simp [ih]

/-- Both ends are addresses, and the end is fewer than `rounds` increments behind the start, or
both ends are not. -/
def EndsMeet (rounds : ℕ) (start stop : List Char) : Prop :=
  match parseIP (String.ofList start), parseIP (String.ofList stop) with
  | some ip, some ip' => distance ip ip' < rounds
  | none, none => True
  | _, _ => False

/-- The ends of an item that is a range meet. -/
def ItemMeets (rounds : ℕ) (item : List Char) : Prop :=
  match item.splitOn '-' with
  | start :: stop :: _ => EndsMeet rounds start stop
  | _ => True

theorem rangeIPs_isSome_iff_iterate {fuel : ℕ} {start stop : Bytes}
    (hlen : start.length = stop.length) :
    (rangeIPs fuel start stop).isSome = true ↔ ∃ n < fuel, increment^[n] start = stop := by
  rw [rangeIPs, collectUntil_isSome_iff]
  refine exists_congr fun n => and_congr_right fun _ => ?_
  rw [ipEqual_of_length ((length_iterate_increment n start).trans hlen), decide_eq_true_iff]

theorem rangeIPs_of_nil {fuel : ℕ} {start stop : Bytes}
    (hlen : (start = [] ∧ stop.length = 16) ∨ (start.length = 16 ∧ stop = [])) :
    (rangeIPs fuel start stop).isSome = false := by
  rw [← Bool.not_eq_true, rangeIPs, collectUntil_isSome_iff]
  rintro ⟨n, -, hmeet⟩
  have hlen' := length_iterate_increment n start
  rcases hlen with ⟨rfl, hstop⟩ | ⟨hstart, rfl⟩
  · simp [ipEqual, hlen', hstop] at hmeet
  · simp [ipEqual, hlen', hstart] at hmeet

theorem rangeIPs_isSome_iff {fuel : ℕ} (hfuel : 0 < fuel) (start stop : List Char) :
    (rangeIPs fuel (netParseIP start) (netParseIP stop)).isSome = true ↔
      EndsMeet fuel start stop := by
  unfold netParseIP EndsMeet
  cases hstart : parseIP (String.ofList start) with
  | none =>
    cases hstop : parseIP (String.ofList stop) with
    | none =>
      simp only [Option.getD_none, iff_true]
      exact (rangeIPs_isSome_iff_iterate rfl).mpr ⟨0, hfuel, rfl⟩
    | some ip' =>
      simp only [Option.getD_none, Option.getD_some, iff_false, Bool.not_eq_true]
      exact rangeIPs_of_nil (.inl ⟨rfl, length_parseIP hstop⟩)
  | some ip =>
    cases hstop : parseIP (String.ofList stop) with
    | none =>
      simp only [Option.getD_none, Option.getD_some, iff_false, Bool.not_eq_true]
      exact rangeIPs_of_nil (.inr ⟨length_parseIP hstart, rfl⟩)
    | some ip' =>
      have hlen : ip.length = ip'.length := by rw [length_parseIP hstart, length_parseIP hstop]
      simp only [Option.getD_some]
      rw [rangeIPs_isSome_iff_iterate hlen]
      constructor
      · rintro ⟨n, hn, hmeet⟩
        exact (distance_le hlen hmeet).trans_lt hn
      · exact fun hlt => ⟨_, hlt, iterate_distance hlen⟩

theorem itemIPs_isSome_iff {fuel : ℕ} (hfuel : 0 < fuel) (item : List Char) :
    (itemIPs fuel item).isSome = true ↔ ItemMeets fuel item := by
  unfold itemIPs ItemMeets
  match item.splitOn '-' with
  | [] => exact ⟨fun _ => trivial, fun _ => rfl⟩
  | [_] => exact ⟨fun _ => trivial, fun _ => rfl⟩
  | start :: stop :: _ => exact rangeIPs_isSome_iff hfuel start stop

theorem ipsFromRange_isSome_iff {fuel : ℕ} (hfuel : 0 < fuel) (text : String) :
    (ipsFromRange fuel text).isSome = true ↔
      ∀ item ∈ text.toList.splitOn ',', ItemMeets fuel item := by
  rw [ipsFromRange, Option.isSome_map, ipsLoop_isSome_iff]
  exact forall₂_congr fun item _ => itemIPs_isSome_iff hfuel item

/-- No run of the inner loop goes past `2 ^ 32` rounds if and only if every range of the text has
two addresses as its ends, the second at most `2 ^ 32 - 1` above the first (going around at
`2 ^ 128`), or two texts that are no addresses. -/
theorem ipsFromRange_returns_iff (text : String) :
    (ipsFromRange (2 ^ 32) text).isSome = true ↔
      ∀ item ∈ text.toList.splitOn ',', ItemMeets (2 ^ 32) item :=
  ipsFromRange_isSome_iff (by decide) text

/-- A range without its end: the loop steps the start for ever. -/
theorem open_range_never_returns : ¬ ∃ fuel, (ipsFromRange fuel "10.0.0.1-").isSome = true := by
  rintro ⟨fuel, hreturns⟩
  have hparts : "10.0.0.1-".toList.splitOn '-' = ["10.0.0.1".toList, []] := by decide +kernel
  have hstuck : (itemIPs fuel "10.0.0.1-".toList).isSome = false := by
    rw [itemIPs, hparts]
    exact rangeIPs_of_nil (.inr ⟨by decide +kernel, by decide +kernel⟩)
  rw [ipsFromRange, Option.isSome_map, ipsLoop_isSome_iff] at hreturns
  have hitem := hreturns "10.0.0.1-".toList (by decide +kernel)
  rw [hstuck] at hitem
  cases hitem

/-! ## Lists of dotted addresses and ranges -/

/-- The 16-byte form of an IPv4 address. -/
def to16 (a : IPv4) : Bytes := v4InV6Prefix ++ beBytes a

/-- One item of a well-formed `ip_reserved`: a dotted address, or a range of two of them in
ascending order. -/
inductive ReservedItem where
  | address (text : List Char) (a : IPv4) (read : parseIPv4 text = some (beBytes a))
  | range (first last : List Char) (a b : IPv4) (read_first : parseIPv4 first = some (beBytes a))
      (read_last : parseIPv4 last = some (beBytes b)) (ascending : a.toNat ≤ b.toNat)

namespace ReservedItem

def text : ReservedItem → List Char
  | address text _ _ => text
  | range first last _ _ _ _ _ => first ++ '-' :: last

/-- The addresses of an item; `a-b` stands for `b - a + 1` of them. -/
def addresses : ReservedItem → List IPv4
  | address _ a _ => [a]
  | range _ _ a b _ _ _ => (List.range (b.toNat - a.toNat + 1)).map fun k : ℕ => ipAdd a k

end ReservedItem

/-- The items with commas between them. -/
def reservedText (items : List ReservedItem) : String :=
  String.ofList ([','].intercalate (items.map ReservedItem.text))

theorem netParseIP_of_parseTo4 {s : List Char} {a : IPv4}
    (h : parseTo4 (String.ofList s) = some (beBytes a)) : netParseIP s = to16 a := by
  rw [netParseIP, parseIP_of_parseTo4 h]
  rfl

theorem netParseIP_dotted {s : List Char} {a : IPv4} (h : parseIPv4 s = some (beBytes a)) :
    netParseIP s = to16 a :=
  netParseIP_of_parseTo4 (parseTo4_of_parseIPv4 h)

theorem netParseIP_ipText (a : IPv4) : netParseIP (ipText (to16 a)).toList = to16 a := by
  rw [netParseIP, String.ofList_toList, to16, parseIP_ipText_mapped]
  rfl

theorem length_to16 (a : IPv4) : (to16 a).length = 16 := rfl

theorem byteValue_beBytes (a : IPv4) : byteValue (beBytes a) = a.toNat := by
  have ha := a.isLt
  simp only [byteValue, beBytes, List.reverse_cons, List.reverse_nil, List.nil_append,
    List.cons_append, List.map_cons, List.map_nil, Nat.ofDigits_cons, Nat.ofDigits_nil,
    UInt8.toNat_ofNat']
  omega

theorem byteValue_to16 (a : IPv4) : byteValue (to16 a) = a.toNat + 2 ^ 32 * 0xffff := by
  have hprefix : byteValue v4InV6Prefix = 0xffff := by decide +kernel
  rw [to16, byteValue_append, byteValue_beBytes, hprefix, length_beBytes]
  rfl

theorem iterate_increment_to16 {a : IPv4} {k : ℕ} (hk : a.toNat + k < 2 ^ 32) :
    increment^[k] (to16 a) = to16 (ipAdd a k) := by
  refine byteValue_inj (length_iterate_increment k _) ?_
  rw [byteValue_iterate, byteValue_to16, byteValue_to16, length_to16, ipAdd_toNat,
    Nat.mod_eq_of_lt hk, Nat.mod_eq_of_lt (by omega)]
  omega

theorem rangeIPs_ascending {a b : IPv4} (hab : a.toNat ≤ b.toNat) :
    rangeIPs (2 ^ 32) (to16 a) (to16 b) =
      some ((List.range (b.toNat - a.toNat + 1)).map fun k : ℕ => to16 (ipAdd a k)) := by
  have hb := b.isLt
  have hiter : ∀ k ≤ b.toNat - a.toNat, increment^[k] (to16 a) = to16 (ipAdd a k) :=
    fun k hk => iterate_increment_to16 (by omega)
  have hend : ipAdd a (b.toNat - a.toNat : ℕ) = b := by
    apply BitVec.eq_of_toNat_eq
    rw [ipAdd_toNat]
    omega
  have hmeet : ipEqual (increment^[b.toNat - a.toNat] (to16 a)) (to16 b) = true := by
    rw [hiter _ le_rfl, hend, ipEqual_of_length rfl, decide_eq_true rfl]
  have hbefore : ∀ k < b.toNat - a.toNat,
      ipEqual (increment^[k] (to16 a)) (to16 b) = false := fun k hk => by
    have hlen : (to16 (ipAdd a k)).length = (to16 b).length := rfl
    rw [hiter k hk.le, ipEqual_of_length hlen, decide_eq_false]
    intro heq
    have hvalue := congrArg byteValue heq
    rw [byteValue_to16, byteValue_to16, ipAdd_toNat] at hvalue
    omega
  rw [rangeIPs, collectUntil_eq increment _ _ (by omega) hmeet hbefore]
  refine congrArg some (List.map_congr_left fun k hk => ?_)
  rw [hiter k (by have := List.mem_range.mp hk; omega), netParseIP_ipText]

theorem dash_notMem {s : List Char} {v4 : Bytes} (h : parseIPv4 s = some v4) : '-' ∉ s :=
  (dotted_of_parseIPv4 h).notMem (by decide) (by decide)

theorem comma_notMem {s : List Char} {v4 : Bytes} (h : parseIPv4 s = some v4) : ',' ∉ s :=
  (dotted_of_parseIPv4 h).notMem (by decide) (by decide)

theorem ReservedItem.comma_notMem_text (item : ReservedItem) : ',' ∉ item.text := by
  cases item with
  | address text a hread => exact comma_notMem hread
  | range first last a b hfirst hlast hab =>
    rw [text, List.mem_append, List.mem_cons]
    rintro (h | h | h)
    · exact comma_notMem hfirst h
    · cases h
    · exact comma_notMem hlast h

theorem itemIPs_text (item : ReservedItem) :
    itemIPs (2 ^ 32) item.text = some (item.addresses.map to16) := by
  cases item with
  | address text a hread =>
    have hsplit : text.splitOn '-' = [text] := by
      have hpart : ∀ part ∈ [text], '-' ∉ part := by simpa using dash_notMem hread
      simpa using List.splitOn_intercalate '-' hpart
    rw [itemIPs, ReservedItem.text, hsplit]
    simp only [netParseIP_dotted hread]
    rfl
  | range first last a b hfirst hlast hab =>
    have hsplit : (first ++ '-' :: last).splitOn '-' = [first, last] := by
      have hpart : ∀ part ∈ [first, last], '-' ∉ part := by
        simpa using ⟨dash_notMem hfirst, dash_notMem hlast⟩
      simpa using List.splitOn_intercalate '-' hpart
    rw [itemIPs, ReservedItem.text, hsplit]
    simp only [netParseIP_dotted hfirst, netParseIP_dotted hlast]
    rw [rangeIPs_ascending hab, ReservedItem.addresses, List.map_map]
    rfl

theorem ipsLoop_items (items : List ReservedItem) (iplist : List Bytes) :
    ipsLoop (2 ^ 32) (items.map ReservedItem.text) iplist =
      some (iplist ++ (items.flatMap ReservedItem.addresses).map to16) := by
  induction items generalizing iplist with
  | nil => simp [ipsLoop]
  | cons item items ih =>
    rw [List.map_cons, ipsLoop, itemIPs_text]
    simp only [ih, List.flatMap_cons, List.map_append, List.append_assoc]

theorem ipsFromRange_items {items : List ReservedItem} (hne : items ≠ []) :
    ipsFromRange (2 ^ 32) (reservedText items) =
      some ((items.flatMap ReservedItem.addresses).map to16,
        (items.flatMap ReservedItem.addresses).length) := by
  have hsplit : (reservedText items).toList.splitOn ',' = items.map ReservedItem.text := by
    rw [reservedText, String.toList_ofList]
    refine List.splitOn_intercalate ',' ?_ (by simpa using hne)
    intro text htext
    obtain ⟨item, -, rfl⟩ := List.mem_map.mp htext
    exact item.comma_notMem_text
  rw [ipsFromRange, hsplit, ipsLoop_items, List.nil_append, Option.map_some, List.length_map]

/-- On IPv4 addresses the loop is that of `excludeIP`. -/
theorem excludeLoop_to16 (start : IPv4) (l : List IPv4) (available : DHCPPool) :
    excludeLoop start (l.map to16) available = some (excludeIP start available l) := by
  induction l generalizing available with
  | nil => rfl
  | cons a l ih =>
    have hread : (to4 (to16 a)).bind beUint32 = some a := by
      rw [to16, to4_mapped (length_beBytes a)]
      exact beUint32_beBytes a
    have hne : to16 a ≠ [] := fun h => by cases congrArg List.length h
    rw [List.map_cons, excludeLoop, if_neg hne, hread]
    exact ih _

/-- `ExcludeIP` on the text is `excludeIP` on its addresses. Of no item at all the text is empty,
and its one part is no address. -/
theorem excludeText_items (start : IPv4) (available : DHCPPool) (items : List ReservedItem) :
    excludeText (2 ^ 32) start available (reservedText items) =
      some (excludeIP start available (items.flatMap ReservedItem.addresses)) := by
  cases items with
  | nil => rfl
  | cons item items =>
    rw [excludeText, ipsFromRange_items (List.cons_ne_nil item items)]
    exact excludeLoop_to16 _ _ _

theorem lookup_reserved (start : IPv4) (l : List IPv4) {i : ℕ} (hi : i < 2 ^ 32) :
    (l.map fun a => ((a - start).toNat, FakeMac)).lookup i =
      if ipAdd start i ∈ l then some FakeMac else none := by
  have hposition : ∀ a : IPv4, i = (a - start).toNat ↔ ipAdd start i = a := fun a => by
    have hs := start.isLt
    have ha := a.isLt
    rw [BitVec.toNat_sub, ← BitVec.toNat_inj, ipAdd_toNat]
    omega
  induction l with
  | nil => rfl
  | cons a l ih =>
    rw [List.map_cons, lookup_cons_pair, ih]
    simp only [hposition a, List.mem_cons]
    by_cases ha : ipAdd start i = a
    · simp [ha]
    · simp [ha]

section Fresh
variable (start : IPv4) {size : ℕ} (hsize : size ≤ 2 ^ 32) (algorithm : Int) (clock : ℕ → Int)
  (l : List IPv4) (i : ℕ)
include hsize

theorem lookup_excludeIP_fresh :
    (excludeIP start (DHCPPool.newDHCPPool size algorithm clock) l).mac.lookup i =
      if i < size ∧ ipAdd start i ∈ l then some FakeMac else none := by
  simp only [excludeIP_eq, lookup_reserveAll, DHCPPool.newDHCPPool_capacity,
    DHCPPool.newDHCPPool_free, DHCPPool.newDHCPPool_mac, Finset.mem_range, and_self,
    Finmap.lookup_empty, Option.or_none]
  by_cases hi : i < size
  · rw [if_pos hi, lookup_reserved start l (by omega)]
    simp only [hi, true_and]
  · rw [if_neg hi, if_neg fun h => hi h.1]

theorem mem_free_excludeIP_fresh :
    i ∈ (excludeIP start (DHCPPool.newDHCPPool size algorithm clock) l).free ↔
      i < size ∧ ipAdd start i ∉ l := by
  rw [excludeIP_eq, mem_free_reserveAll, DHCPPool.newDHCPPool_capacity,
    DHCPPool.newDHCPPool_free, Finset.mem_range]
  refine and_congr_right fun hi => ?_
  rw [lookup_reserved start l (by omega)]
  simp [hi]

end Fresh

/-- Exclusion is exact: the addresses are those of the items, in their order, and the indexes
that a fresh pool has reserved afterwards are those of the listed addresses within its range. -/
theorem exclusion_exact (start stop : IPv4) (algorithm : Int) (clock : ℕ → Int)
    (items : List ReservedItem) (hrange : start.toNat ≤ stop.toNat) (hitems : items ≠ []) :
    ipsFromRange (2 ^ 32) (reservedText items) =
        some ((items.flatMap ReservedItem.addresses).map to16,
          (items.flatMap ReservedItem.addresses).length) ∧
      ∃ dp, excludeText (2 ^ 32) start (DHCPPool.newDHCPPool
          (safeIntToUint64 (ipRange start stop)) algorithm clock) (reservedText items) = some dp ∧
        ∀ i : ℕ, dp.mac.lookup i = (if i ≤ stop.toNat - start.toNat ∧
            ipAdd start i ∈ items.flatMap ReservedItem.addresses then some FakeMac else none) ∧
          (i ∈ dp.free ↔ i ≤ stop.toNat - start.toNat ∧
            ipAdd start i ∉ items.flatMap ReservedItem.addresses) := by
  have hstop := stop.isLt
  have hsize : safeIntToUint64 (ipRange start stop) = stop.toNat - start.toNat + 1 := by
    have hcast : ipRange start stop = ((stop.toNat - start.toNat + 1 : ℕ) : Int) := by
      unfold ipRange
      omega
    rw [hcast, safeIntToUint64_natCast]
  have hle : stop.toNat - start.toNat + 1 ≤ 2 ^ 32 := by omega
  rw [hsize]
  refine ⟨ipsFromRange_items hitems, _, excludeText_items start _ items, fun i => ⟨?_, ?_⟩⟩
  · simp only [lookup_excludeIP_fresh start hle, Nat.lt_succ_iff]
  · rw [mem_free_excludeIP_fresh start hle, Nat.lt_succ_iff]

/-- Two items that overlap; the range begins below `10.0.0.10`. -/
def Sample.reserved : List ReservedItem :=
  [.address "10.0.0.11".toList 0x0a00000b#32 (by decide +kernel),
    .range "10.0.0.9".toList "10.0.0.11".toList 0x0a000009#32 0x0a00000b#32 (by decide +kernel)
      (by decide +kernel) (by decide)]

theorem exclusion_exact_sample : reservedText Sample.reserved = "10.0.0.11,10.0.0.9-10.0.0.11" ∧
    ∃ dp, excludeText (2 ^ 32) 0x0a00000a#32 (DHCPPool.newDHCPPool (safeIntToUint64
        (ipRange 0x0a00000a#32 0x0a00000c#32)) 1 fun _ => 0) (reservedText Sample.reserved) =
      some dp ∧ dp.mac.lookup 1 = some FakeMac ∧ 2 ∈ dp.free := by
  obtain ⟨-, dp, hdp, hall⟩ := exclusion_exact 0x0a00000a#32 0x0a00000c#32 1 (fun _ => 0)
    Sample.reserved (by decide) (List.cons_ne_nil _ _)
  refine ⟨by decide +kernel, dp, hdp, ?_, ?_⟩
  · rw [(hall 1).1]
    decide +kernel
  · rw [(hall 2).2]
    decide +kernel

end StandaloneDHCP
