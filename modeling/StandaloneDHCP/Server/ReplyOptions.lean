import StandaloneDHCP.Lib.MapRange
import StandaloneDHCP.Pool.DHCPPool
import StandaloneDHCP.Wire.Packet

/-! Replies and the option set they carry: `ShuffleIP` and `ShuffleNetIP` of `utils.go`,
`buildReplyOptions` of `interface.go`. `ReplyEnv` is what building a reply reads outside the
handler: the random source, the clock, the order of map loops, and `ApplyOptionOverrides`
as the override store defines it at that moment. -/
namespace StandaloneDHCP
open Lib
set_option autoImplicit false

/-- `math/rand`: the draw number `k` of the source seeded with `seed`, below `n`. -/
structure RandSource where
  intn : Int → ℕ → ℕ → ℕ
  intn_lt : ∀ seed k n, 0 < n → intn seed k n < n

structure ReplyEnv where
  random : RandSource
  unixNano : Int
  codeOrder : RangeOrder ℕ
  applyOptionOverrides : Options → String → String → Options

/-- `array[i], array[j] = array[j], array[i]`. -/
def swapAt (array : List Bytes) (i j : ℕ) : List Bytes :=
  (array.set i (array.getD j [])).set j (array.getD i [])

/-- `for i := i; i > 0; i--` with `k` draws made so far. -/
def shuffleLoop (draw : ℕ → ℕ → ℕ) : ℕ → ℕ → List Bytes → List Bytes
  | 0, _, array => array
  | i + 1, k, array => shuffleLoop draw i (k + 1) (swapAt array (i + 1) (draw k (i + 2)))

def shuffleNetIP (env : ReplyEnv) (array : List Bytes) (randSrc : Int) : Bytes :=
  let randSrc := if randSrc = 0 then env.unixNano else randSrc
  (shuffleLoop (env.random.intn randSrc) (array.length - 1) 0 array).flatten

/-- The complete 4-byte groups of a byte string. -/
def addressGroups : Bytes → List Bytes
  | a :: b :: c :: d :: rest => [a, b, c, d] :: addressGroups rest
  | _ => []

def shuffleIP (env : ReplyEnv) (a : Bytes) (randSrc : Int) : Bytes :=
  shuffleNetIP env (addressGroups a) randSrc

def isShuffled (key : UInt8) : Bool :=
  key == optionDomainNameServer || key == optionRouter

/-- `none`: `p.CHAddr()[5]` is out of range while a DNS or router option is being copied. -/
def buildReplyOptions (env : ReplyEnv) (baseOptions : Options) (p : Packet)
    (networkIP clientMac : String) : Option Options :=
  match p.chaddr[5]? with
  | some b =>
    let options : Options := fun key => (baseOptions key).map fun value =>
      if isShuffled key then shuffleIP env value b.toNat else value
    some (env.applyOptionOverrides options networkIP clientMac)
  | none =>
    if (baseOptions optionDomainNameServer).isSome || (baseOptions optionRouter).isSome then none
    else some (env.applyOptionOverrides baseOptions networkIP clientMac)

/-- `SelectOrderOrAll`: the options named by `order`, or all of them in map order. -/
def selectOrderOrAll (env : ReplyEnv) (options : Options) (order : Option Bytes) :
    List (UInt8 × Bytes) :=
  let codes : List UInt8 := match order with
    | some order => order
    | none => (env.codeOrder.keys
        ((Finset.range 256).filter fun c => (options (UInt8.ofNat c)).isSome)).map UInt8.ofNat
  codes.filterMap fun code => (options code).map fun value => (code, value)

/-- The arguments of `dhcp.ReplyPacket`; `yiaddr = none` stands for the `nil` of a NAK. -/
structure Reply where
  messageType : MessageType
  serverId : IPv4
  yiaddr : Option IPv4
  leaseDuration : Int
  options : List (UInt8 × Bytes)

structure Answer where
  d : Option Reply := none
  ip : Bytes := []
  mac : Bytes := []
  srcIP : Option IPv4 := none

namespace Answer

/-- The address of an answer that carries a packet of type `t`. -/
def addressOf (t : MessageType) (answer : Answer) : Option IPv4 :=
  match answer.d with
  | some reply => if reply.messageType = t then reply.yiaddr else none
  | none => none

def offered (answer : Answer) : Option IPv4 := answer.addressOf .offer
def acked (answer : Answer) : Option IPv4 := answer.addressOf .ack

def isNak (answer : Answer) : Bool :=
  match answer.d with
  | some reply => reply.messageType == .nak
  | none => false

end Answer
end StandaloneDHCP
