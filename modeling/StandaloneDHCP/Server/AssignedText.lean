import StandaloneDHCP.Lib.Pattern
import StandaloneDHCP.Server.ReservedRanges
import StandaloneDHCP.Wire.MacText

/-! The text of `ip_assigned`: `AssignIP` (`config.go`). Each entry is searched for a pattern that
takes any three digits for an octet and any character for a dot, with anything before and behind
it. What it captures as the address goes through `net.ParseIP` unchecked. On the entries that
denote a hardware address and an IPv4 address the function is `assignIP` of the parsed list;
against the text with all other entries removed it can differ. -/
namespace StandaloneDHCP
open Lib
set_option autoImplicit false

/-! ## The function -/

namespace AssignPattern

/-- `[0-9A-Fa-f]{2}` -/
def hexPair : Pattern Char := .times (.sat isHex) 2

/-- `(?:[0-9A-Fa-f]{2}:){5}[0-9A-Fa-f]{2}` -/
def mac : Pattern Char := .seq (.times (.seq hexPair (.sat (· == ':'))) 5) hexPair

/-- `[0-9]{1,3}` -/
def octet : Pattern Char := .seq (.sat Char.isDigit) (.atMost (.sat Char.isDigit) 2)

/-- `[0-9]{1,3}.`, with the dot that stands for any character but a line feed. -/
def octetAny : Pattern Char := .seq octet (.sat (· != '\n'))

/-- `(?:[0-9]{1,3}.){3}(?:[0-9]{1,3})` -/
def ip : Pattern Char := .seq (.times octetAny 3) octet

end AssignPattern

/-- `((?:[0-9A-Fa-f]{2}:){5}[0-9A-Fa-f]{2}):((?:[0-9]{1,3}.){3}(?:[0-9]{1,3}))` -/
def rgx : Pattern Char :=
  .seq (.group AssignPattern.mac) (.seq (.sat (· == ':')) (.group AssignPattern.ip))

/-- The map `couple` and the list `iplist` that `AssignIP` returns, and the pool it works on. -/
structure Assigned where
  available : DHCPPool
  couple : AList (fun _ : String => BitVec 32)
  iplist : List Bytes

/-- The loop over the entries. `none` is the panic of `binary.BigEndian.Uint32` on the `nil` that
`To4` returns if the captured text is no IPv4 address. -/
def assignLoop (start : IPv4) : List (List Char) → Assigned → Option Assigned
  | [], r => some r
  | rangeip :: rest, r =>
    match rgx.find rangeip with
    | some (mac :: ip :: _) =>
      match (parseTo4 (String.ofList ip)).bind beUint32 with
      | none => none
      | some a =>
        assignLoop start rest
          { available := (r.available.reserveIPIndex (a - start).toNat (String.ofList mac)).1
            couple := r.couple.insert (String.ofList mac) (a - start)
            iplist := r.iplist ++ [netParseIP ip] }
    | _ => assignLoop start rest r

/-- `AssignIP` on the text; `assignIP` is its loop on the parsed entries. -/
def assignText (start : IPv4) (available : DHCPPool) (text : String) : Option Assigned :=
  if text = "" then some ⟨available, ∅, []⟩
  else assignLoop start (text.toList.splitOn ',') ⟨available, ∅, []⟩

/-! ## From the text to the list of entries -/

/-- What the pattern finds in one entry: nothing, or a MAC and an address. -/
inductive Scan (rangeip : List Char) : Option (String × IPv4) → Prop
  | skipped (hfind : ∀ mac ip rest, rgx.find rangeip ≠ some (mac :: ip :: rest)) :
      Scan rangeip none
  | taken (mac ip : List Char) (rest : List (List Char)) (a : IPv4)
      (hfind : rgx.find rangeip = some (mac :: ip :: rest))
      (hread : parseTo4 (String.ofList ip) = some (beBytes a)) :
      Scan rangeip (some (String.ofList mac, a))

/-- The pattern captures something that is no IPv4 address. -/
def WrongAddress (rangeip : List Char) : Prop :=
  ∃ mac ip rest, rgx.find rangeip = some (mac :: ip :: rest) ∧ parseTo4 (String.ofList ip) = none

/-- The MAC and the address that the pattern finds in an entry. -/
def found (rangeip : List Char) : Option (String × IPv4) :=
  match rgx.find rangeip with
  | some (mac :: ip :: _) =>
    ((parseTo4 (String.ofList ip)).bind beUint32).map fun a => (String.ofList mac, a)
  | _ => none

theorem exists_beBytes {s : String} {v4 : Bytes} (hv : parseTo4 s = some v4) :
    ∃ a, v4 = beBytes a := by
  obtain ⟨w, x, y, z, rfl⟩ := List.length_eq_four.mp (length_parseTo4 hv)
  exact ⟨_, eq_beBytes rfl rfl⟩

theorem scan_found (rangeip : List Char) : WrongAddress rangeip ∨ Scan rangeip (found rangeip) := by
  unfold found
  split
  · next mac ip rest hfind =>
    cases hv : parseTo4 (String.ofList ip) with
    | none => exact .inl ⟨mac, ip, rest, hfind, hv⟩
    | some v4 =>
      obtain ⟨a, rfl⟩ := exists_beBytes hv
      rw [Option.bind_some, beUint32_beBytes]
      exact .inr (.taken mac ip rest a hfind hv)
  · next hno => exact .inr (.skipped hno)

/-- The result of writing a list of entries. -/
def Assigned.write (start : IPv4) (r : Assigned) (es : List (String × IPv4)) : Assigned where
  available := reserveAll r.available (es.map fun e => ((e.2 - start).toNat, e.1))
  couple := es.foldl (fun c e => c.insert e.1 (e.2 - start)) r.couple
  iplist := r.iplist ++ es.map fun e => to16 e.2

theorem assignLoop_eq (start : IPv4) {items : List (List Char)}
    (hok : ∀ e ∈ items, ¬ WrongAddress e) (r : Assigned) :
    assignLoop start items r = some (r.write start (items.filterMap found)) := by
  induction items generalizing r with
  | nil => simp [assignLoop, Assigned.write, reserveAll]
  | cons e items ih =>
    have hrest := ih fun e' he' => hok e' (List.mem_cons_of_mem e he')
    have hscan := (scan_found e).resolve_left (hok e List.mem_cons_self)
    generalize hfound : found e = entry at hscan
    rw [assignLoop]
    cases hscan with
    | skipped hfind =>
      rw [List.filterMap_cons_none hfound]
      split
      · next mac ip rest heq => exact absurd heq (hfind mac ip rest)
      · exact hrest r
    | taken mac ip rest a hfind hread =>
      rw [List.filterMap_cons_some hfound, hfind]
      simp only [hread, Option.bind_some, beUint32_beBytes, netParseIP_of_parseTo4 hread, hrest,
        Assigned.write, List.map_cons, List.append_assoc, List.singleton_append]
      rfl

theorem assignLoop_eq_none (start : IPv4) {items : List (List Char)} {e : List Char}
    (he : e ∈ items) (hwrong : WrongAddress e) (r : Assigned) :
    assignLoop start items r = none := by
  induction items generalizing r with
  | nil => cases he
  | cons e' items ih =>
    rw [assignLoop]
    rcases List.mem_cons.mp he with rfl | he
    · obtain ⟨mac, ip, rest, hfind, hnone⟩ := hwrong
      rw [hfind]
      simp only [hnone, Option.bind_none]
    · split
      · split
        · rfl
        · exact ih he _
      · exact ih he r

/-- The entries that `AssignIP` takes from a text. -/
def entriesOf (text : String) : List (String × IPv4) :=
  (text.toList.splitOn ',').filterMap found

def TakesWrongAddress (text : String) : Prop := ∃ e ∈ text.toList.splitOn ',', WrongAddress e

theorem not_wrongAddress_nil : ¬ WrongAddress [] := by
  rintro ⟨mac, ip, rest, hfind, -⟩
  cases hfind

theorem assignText_eq (start : IPv4) (dp : DHCPPool) {text : String}
    (hok : ¬ TakesWrongAddress text) :
    assignText start dp text = some (Assigned.write start ⟨dp, ∅, []⟩ (entriesOf text)) := by
  unfold assignText
  split
  · next htext =>
    subst htext
    rfl
  · exact assignLoop_eq start (fun e he hwrong => hok ⟨e, he, hwrong⟩) _

theorem assignText_eq_none (start : IPv4) (dp : DHCPPool) {text : String}
    (hwrong : TakesWrongAddress text) : assignText start dp text = none := by
  obtain ⟨e, he, hwrong⟩ := hwrong
  have hne : text ≠ "" := by
    rintro rfl
    obtain rfl : e = [] := by simpa using he
    exact not_wrongAddress_nil hwrong
  rw [assignText, if_neg hne]
  exact assignLoop_eq_none start he hwrong _

/-- The text and the list of entries that `readConfig` is given say the same. -/
theorem assignText_eq_assignIP (start : IPv4) (dp : DHCPPool) {text : String}
    (hok : ¬ TakesWrongAddress text) :
    (assignText start dp text).map (fun r => (r.available, r.couple)) =
      some (assignIP start dp (entriesOf text)) := by
  rw [assignText_eq start dp hok, assignIP, assignIP_aux]
  rfl

/-- The pool and the map of a handler from the two texts of its section: `ExcludeIP` on a fresh
pool, then `AssignIP`. -/
def readTexts (fuel : ℕ) (cfg : ScopeConfig) (ipReserved ipAssigned : String) : Option Assigned :=
  (excludeText fuel cfg.dhcpStart (DHCPPool.newDHCPPool
    (safeIntToUint64 (ipRange cfg.dhcpStart cfg.dhcpEnd)) cfg.algorithm cfg.clock) ipReserved).bind
    fun available => assignText cfg.dhcpStart available ipAssigned

/-- The handler of `readConfig` is the one that the texts lead to. -/
theorem readTexts_eq_readConfig {cfg : ScopeConfig} {items : List ReservedItem} {text : String}
    (hreserved : cfg.ipReserved = items.flatMap ReservedItem.addresses)
    (hassigned : cfg.ipAssigned = entriesOf text) (hok : ¬ TakesWrongAddress text) :
    (readTexts (2 ^ 32) cfg (reservedText items) text).map (fun r => (r.available, r.couple)) =
      some ((readConfig cfg).available, (readConfig cfg).ipAssigned) := by
  rw [readTexts, excludeText_items, Option.bind_some, assignText_eq_assignIP _ _ hok,
    ← hreserved, ← hassigned]
  rfl

/-! ## Entries that denote a hardware address and an IPv4 address -/

/-- A spelling of one static assignment. -/
structure StaticEntry where
  mac : List Char
  ip : List Char
  hw : Bytes
  address : IPv4
  mac_text : parseMAC mac = some hw
  ip_text : parseIPv4 ip = some (beBytes address)

def StaticEntry.text (s : StaticEntry) : List Char := s.mac ++ ':' :: s.ip

/-- The whole entry is a MAC, a colon and an IPv4 address. -/
def denotes (e : List Char) : Bool :=
  (parseMAC (e.take 17)).isSome && e[17]? == some ':' && (parseIPv4 (e.drop 18)).isSome

theorem denotes_iff (e : List Char) : denotes e = true ↔ ∃ s : StaticEntry, s.text = e := by
  simp only [denotes, Bool.and_eq_true, beq_iff_eq, Option.isSome_iff_exists]
  constructor
  · rintro ⟨⟨⟨hw, hmac⟩, hcolon⟩, v4, hip⟩
    obtain ⟨a, rfl⟩ := exists_beBytes (parseTo4_of_parseIPv4 hip)
    refine ⟨⟨_, _, hw, a, hmac, hip⟩, ?_⟩
    obtain ⟨hlt, hget⟩ := List.getElem?_eq_some_iff.mp hcolon
    rw [StaticEntry.text, ← hget, ← List.drop_eq_getElem_cons hlt, List.take_append_drop]
  · rintro ⟨s, rfl⟩
    have hlen : s.mac.length = 17 := (length_of_hexPairs s.mac_text).1
    refine ⟨⟨⟨s.hw, ?_⟩, ?_⟩, beBytes s.address, ?_⟩
    · rw [StaticEntry.text, List.take_left' hlen]
      exact s.mac_text
    · rw [StaticEntry.text, List.getElem?_append_right hlen.le, hlen]
      rfl
    · rw [StaticEntry.text, show 18 = 17 + 1 from rfl, ← List.drop_drop,
        List.drop_left' hlen]
      exact s.ip_text

open AssignPattern Pattern in
theorem first_hexPair {a b : Char} {x : UInt8} (h : hexByte a b = some x) (rest : List Char) :
    hexPair.First (a :: b :: rest) [] rest := by
  obtain ⟨ha, hb⟩ := hexByte_isHex h
  exact (first_sat _ ha).seq ((first_sat _ hb).seq (first_empty rest))

open AssignPattern Pattern in
theorem first_macPairs {colons : ℕ} {s : List Char} {bs : Bytes}
    (h : hexPairs colons s = some bs) (rest : List Char) :
    ∃ last, (times (seq hexPair (sat (· == ':'))) colons).First (s ++ rest) [] last ∧
      hexPair.First last [] rest := by
  induction colons generalizing s bs with
  | zero =>
    obtain ⟨a, b, x, rfl, rfl, hx⟩ := hexPairs_zero_eq_some h
    exact ⟨_, first_empty _, first_hexPair hx rest⟩
  | succ colons ih =>
    obtain ⟨a, b, s, x, xs, rfl, rfl, hx, hrest⟩ := hexPairs_succ_eq_some h
    obtain ⟨last, hpairs, hlast⟩ := ih hrest
    have hcolon : (sat (· == ':')).First (':' :: (s ++ rest)) [] (s ++ rest) := first_sat _ rfl
    exact ⟨last, ((first_hexPair hx _).seq hcolon).seq hpairs, hlast⟩

open AssignPattern Pattern in
/-- An octet is taken whole: what follows it is no digit. -/
theorem first_octet {digits rest : List Char} (h : OctetRun digits)
    (hrest : ∀ c ∈ rest.head?, c.isDigit = false) : octet.First (digits ++ rest) [] rest := by
  obtain ⟨hne, hlen, hdigit⟩ := h
  cases digits with
  | nil => exact absurd rfl hne
  | cons c digits =>
    have htail := first_atMost (Nat.le_of_succ_le_succ hlen)
      (fun d hd => hdigit d (List.mem_cons_of_mem c hd)) hrest
    exact (first_sat _ (hdigit c List.mem_cons_self)).seq htail

open AssignPattern Pattern in
theorem first_octets {dots : ℕ} {s : List Char} (h : Dotted dots s) :
    ∃ last, (times octetAny dots).First s [] last ∧ octet.First last [] [] := by
  induction h with
  | last hrun =>
    have hend : ∀ c ∈ ([] : List Char).head?, c.isDigit = false := by simp
    have hlast := first_octet hrun hend
    rw [List.append_nil] at hlast
    exact ⟨_, first_empty _, hlast⟩
  | @dot digits s dots hrun _ ih =>
    obtain ⟨last, hoctets, hlast⟩ := ih
    have hdot : (sat (· != '\n')).First ('.' :: s) [] s := first_sat s rfl
    have hhead : ∀ c ∈ ('.' :: s).head?, c.isDigit = false := by
      rintro c hc
      cases hc
      rfl
    exact ⟨last, ((first_octet hrun hhead).seq hdot).seq hoctets, hlast⟩

/-- The pattern captures the two parts of a spelling. -/
theorem StaticEntry.find_text (s : StaticEntry) : rgx.find s.text = some [s.mac, s.ip] := by
  obtain ⟨last, hpairs, hpair⟩ := first_macPairs s.mac_text (':' :: s.ip)
  obtain ⟨last', hoctets, hoctet⟩ := first_octets (dotted_of_parseIPv4 s.ip_text)
  have hmac : (Pattern.group AssignPattern.mac).First s.text [s.mac] (':' :: s.ip) :=
    (hpairs.seq hpair).group rfl
  have hcolon : (Pattern.sat (· == ':')).First (':' :: s.ip) [] s.ip := Pattern.first_sat _ rfl
  have hip : (Pattern.group AssignPattern.ip).First s.ip [s.ip] [] :=
    (hoctets.seq hoctet).group (List.append_nil _).symm
  exact Pattern.find_of_first (hmac.seq (hcolon.seq hip))

theorem StaticEntry.found_text (s : StaticEntry) :
    found s.text = some (String.ofList s.mac, s.address) := by
  rw [found, s.find_text]
  simp only [parseTo4_of_parseIPv4 s.ip_text, Option.bind_some, beUint32_beBytes, Option.map_some]

theorem StaticEntry.not_wrongAddress (s : StaticEntry) : ¬ WrongAddress s.text := by
  rintro ⟨mac, ip, rest, hfind, hnone⟩
  cases s.find_text.symm.trans hfind
  cases hnone.symm.trans (parseTo4_of_parseIPv4 s.ip_text)

theorem StaticEntry.comma_notMem_text (s : StaticEntry) : ',' ∉ s.text := by
  rw [text, List.mem_append, List.mem_cons]
  rintro (h | h | h)
  · rcases chars_of_hexPairs s.mac_text ',' h with hc | hc
    · cases hc
    · cases hc
  · cases h
  · exact comma_notMem s.ip_text h

/-- Splitting the entries that have commas between them; no entry at all is one empty part. -/
theorem entriesOf_joined {parts : List (List Char)} (hcomma : ∀ e ∈ parts, ',' ∉ e) :
    entriesOf (String.ofList ([','].intercalate parts)) = parts.filterMap found ∧
      (TakesWrongAddress (String.ofList ([','].intercalate parts)) ↔
        ∃ e ∈ parts, WrongAddress e) := by
  unfold entriesOf TakesWrongAddress
  rw [String.toList_ofList]
  cases parts with
  | nil =>
    refine ⟨rfl, ?_⟩
    simp [not_wrongAddress_nil]
  | cons e parts =>
    rw [List.splitOn_intercalate ',' hcomma (List.cons_ne_nil e parts)]
    exact ⟨rfl, Iff.rfl⟩

/-- The text with every entry removed that does not denote a MAC and an IPv4 address. -/
def goodText (text : String) : String :=
  String.ofList ([','].intercalate ((text.toList.splitOn ',').filter denotes))

theorem entriesOf_goodText (text : String) : entriesOf (goodText text) =
      ((text.toList.splitOn ',').filter denotes).filterMap found ∧
    ¬ TakesWrongAddress (goodText text) := by
  have hgood : ∀ e ∈ (text.toList.splitOn ',').filter denotes, ∃ s : StaticEntry, s.text = e :=
    fun e he => (denotes_iff e).mp (List.mem_filter.mp he).2
  have hcomma : ∀ e ∈ (text.toList.splitOn ',').filter denotes, ',' ∉ e := fun e he => by
    obtain ⟨s, rfl⟩ := hgood e he
    exact s.comma_notMem_text
  obtain ⟨hentries, hwrong⟩ := entriesOf_joined hcomma
  refine ⟨hentries, fun h => ?_⟩
  obtain ⟨e, he, hwrong⟩ := hwrong.mp h
  obtain ⟨s, rfl⟩ := hgood e he
  exact s.not_wrongAddress hwrong

/-! ## Bad entries -/

theorem reserveAll_eq_iff (dp : DHCPPool) (l l' : List (ℕ × String)) :
    reserveAll dp l = reserveAll dp l' ↔
      ∀ i < dp.capacity, i ∈ dp.free → l.lookup i = l'.lookup i := by
  constructor
  · intro heq i hlt hfree
    have hfree_iff := mem_free_reserveAll l dp i
    have hlookup := lookup_reserveAll l dp i
    rw [heq, mem_free_reserveAll] at hfree_iff
    rw [heq, lookup_reserveAll, if_pos ⟨hlt, hfree⟩, if_pos ⟨hlt, hfree⟩] at hlookup
    simp only [hfree, hlt, true_and, forall_const] at hfree_iff
    -- the free indexes tell whether an entry names the index, the owners which one
    cases hl : l.lookup i with
    | none => exact (hfree_iff.mpr hl).symm
    | some m =>
      cases hl' : l'.lookup i with
      | none => cases hl.symm.trans (hfree_iff.mp hl')
      | some m' =>
        rw [hl, hl'] at hlookup
        exact hlookup.symm
  · intro hsame
    obtain ⟨hcap, hrel, halg⟩ := reserveAll_rest l dp
    obtain ⟨hcap', hrel', halg'⟩ := reserveAll_rest l' dp
    have hfree : (reserveAll dp l).free = (reserveAll dp l').free := by
      ext i
      rw [mem_free_reserveAll, mem_free_reserveAll]
      exact and_congr_right fun hi => forall_congr' fun hlt => by rw [hsame i hlt hi]
    have hmac : (reserveAll dp l).mac = (reserveAll dp l').mac := by
      refine Finmap.ext_lookup fun i => ?_
      rw [lookup_reserveAll, lookup_reserveAll]
      split
      · next hi => rw [hsame i hi.1 hi.2]
      · rfl
    calc reserveAll dp l
        = ⟨(reserveAll dp l).free, (reserveAll dp l).mac, (reserveAll dp l).capacity,
            (reserveAll dp l).released, (reserveAll dp l).algorithm⟩ := rfl
      _ = reserveAll dp l' := by rw [hfree, hmac, hcap, hrel, halg, ← hcap', ← hrel', ← halg']

/-- `AssignIP` returns, with the map and the pool that the good entries alone lead to. -/
def SkipsBadEntries (start : IPv4) (dp : DHCPPool) (text : String) : Prop :=
  ∃ r r', assignText start dp text = some r ∧ assignText start dp (goodText text) = some r' ∧
    r.available = r'.available ∧ ∀ m, r.couple.lookup m = r'.couple.lookup m

/-- The indexes that the entries of a text name, in their order. -/
def claimsOf (start : IPv4) (text : String) : List (ℕ × String) :=
  (entriesOf text).map fun e => ((e.2 - start).toNat, e.1)

/-- Bad entries are skipped if and only if no capture is a wrong address, every MAC has the same
last entry with the bad entries as without them, and every free index the same first one. -/
theorem skips_bad_entries_iff (start : IPv4) (dp : DHCPPool) (text : String) :
    SkipsBadEntries start dp text ↔
      (∀ e ∈ text.toList.splitOn ',', ¬ WrongAddress e) ∧
      (∀ m, lookupLast (entriesOf text) m = lookupLast (entriesOf (goodText text)) m) ∧
      ∀ i < dp.capacity, i ∈ dp.free →
        (claimsOf start text).lookup i = (claimsOf start (goodText text)).lookup i := by
  have hgood := assignText_eq start dp (entriesOf_goodText text).2
  have hpool : ∀ t, (Assigned.write start ⟨dp, ∅, []⟩ (entriesOf t)).available =
      reserveAll dp (claimsOf start t) := fun _ => rfl
  have hcouple : ∀ (es : List (String × IPv4)) (m : String),
      (Assigned.write start ⟨dp, ∅, []⟩ es).couple.lookup m =
        (lookupLast es m).map fun a => a - start := fun es m => by
    have hlookup := lookup_foldl_insert (· - start) es ∅ m
    rwa [AList.lookup_empty, Option.or_none] at hlookup
  have hinj := Option.map_injective (sub_left_injective (b := start))
  by_cases hwrong : TakesWrongAddress text
  · constructor
    · rintro ⟨r, r', hr, -⟩
      cases (assignText_eq_none start dp hwrong).symm.trans hr
    · rintro ⟨hok, -⟩
      obtain ⟨e, he, hw⟩ := hwrong
      exact absurd hw (hok e he)
  · have htext := assignText_eq start dp hwrong
    constructor
    · rintro ⟨r, r', hr, hr', hsame, hmap⟩
      obtain rfl := Option.some.inj (htext.symm.trans hr)
      obtain rfl := Option.some.inj (hgood.symm.trans hr')
      rw [hpool, hpool, reserveAll_eq_iff] at hsame
      refine ⟨fun e he hw => hwrong ⟨e, he, hw⟩, fun m => ?_, hsame⟩
      have hm := hmap m
      rw [hcouple, hcouple] at hm
      exact hinj hm
    · rintro ⟨-, hlast, hfirst⟩
      refine ⟨_, _, htext, hgood, ?_, fun m => ?_⟩
      · rw [hpool, hpool]
        exact (reserveAll_eq_iff dp _ _).mpr hfirst
      · rw [hcouple, hcouple, hlast m]

example : found "aa:bb:cc:dd:ee:ff:10.0.0.1234".toList =
    some ("aa:bb:cc:dd:ee:ff", 0x0a00007b#32) := by decide +kernel

/-- An octet of 999 passes the pattern and `AssignIP` panics on it. -/
theorem wrong_octet_panics :
    assignText 0x0a00000a#32 (DHCPPool.newDHCPPool 3 1 fun _ => 0) "aa:bb:cc:dd:ee:ff:999.1.1.1" =
        none ∧
      ¬ SkipsBadEntries 0x0a00000a#32 (DHCPPool.newDHCPPool 3 1 fun _ => 0)
        "aa:bb:cc:dd:ee:ff:999.1.1.1" := by
  have hfind : rgx.find "aa:bb:cc:dd:ee:ff:999.1.1.1".toList =
      some ["aa:bb:cc:dd:ee:ff".toList, "999.1.1.1".toList] := by decide +kernel
  have hwrong : TakesWrongAddress "aa:bb:cc:dd:ee:ff:999.1.1.1" :=
    ⟨"aa:bb:cc:dd:ee:ff:999.1.1.1".toList, by decide +kernel, _, _, _, hfind, by decide +kernel⟩
  have hnone := assignText_eq_none 0x0a00000a#32 (DHCPPool.newDHCPPool 3 1 fun _ => 0) hwrong
  refine ⟨hnone, ?_⟩
  rintro ⟨r, r', hr, -⟩
  cases hnone.symm.trans hr

end StandaloneDHCP
