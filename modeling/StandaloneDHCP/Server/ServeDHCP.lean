import StandaloneDHCP.Server.Handler

/-! `ServeDHCP` of `interface.go` on a server interface: detection of the handler, the
duplicate gate and the message switch. A packet is handled as one step at one clock reading.

The `retry` label of the DISCOVER case is a recursion with fuel: each `goto retry` is one
recursive call, and `none` means that the fuel ran out before the handling returned. A panic
is recovered by `recoverName`, so it ends the handling with the state and the answer as they
are at that point. `Local` is the constant `false` in the source, which leaves the ping as
the only conflict test. -/
namespace StandaloneDHCP
open Lib
set_option autoImplicit false

/-- What one handling reads outside the server: the result of the ping number `k` to each
address, the choices of the pool, and what building the reply reads. -/
structure Env extends ReplyEnv where
  ping : ℕ → IPv4 → Bool
  choice : ℕ → Choice

/-! ## DISCOVER -/

/-- The outcome of the test of the address the device asks for. -/
inductive Asked
  | panicked
  | taken
  | candidate (available : DHCPPool) (free : Int)

def tryRequested (h : DHCPHandler) (p : Packet) (firstTry : Bool) (free : Int) : Asked :=
  match p.options optionRequestedIPAddress, firstTry with
  | some v, true =>
    match beUint32 v with
    | none => .panicked
    | some a =>
      let element := (a - h.start).toNat
      if h.ownerOf element = p.clientMac then .candidate h.available element
      else if h.ownerOf element = FreeMac then
        let r := h.available.reserveIPIndex element p.clientMac
        if r.2.1 = none ∧ r.2.2 = p.clientMac then .candidate r.1 element
        else .candidate r.1 free
      else .taken
  | _, _ => .candidate h.available free

/-- `if free == -1 { GetFreeIPIndex }`; `none`: the pool is full. -/
def grabNext (available : DHCPPool) (choice : Choice) (mac : String) (free : Int) :
    Option (DHCPPool × Int) :=
  if free = -1 then
    match available.getFreeIPIndex choice mac with
    | (available, freeu64, _, none) => some (available, safeUint64ToInt freeu64)
    | (_, _, _, some _) => none
  else some (available, free)

/-- `handler.xid.Set`. -/
def DHCPHandler.setXid (h : DHCPHandler) (now : Int) (p : Packet) : DHCPHandler :=
  { h with xid := h.xid.set now (hexString (beBytes p.xid)) 0 (5 * second) }

/-- `handler.xid.Replace`, error ignored. -/
def DHCPHandler.replaceXid (h : DHCPHandler) (now : Int) (p : Packet) : DHCPHandler :=
  { h with xid := (h.xid.replace now (hexString (beBytes p.xid)) 1 (5 * second)).getD h.xid }

/-- The block at the `retry` label. The result is the handler and the index to offer, no
index where the handling returns without an answer. -/
def retry (env : Env) (now : Int) (p : Packet) :
    ℕ → ℕ → Bool → Int → DHCPHandler → Option (DHCPHandler × Option Int)
  | 0, _, _, _, _ => none
  | fuel + 1, round, firstTry, free, h =>
    if h.available.freeIPsRemaining = 0 then some (h, none)
    else
      match tryRequested h p firstTry free with
      | .panicked => some (h, none)
      | .taken => retry env now p fuel round false free h
      | .candidate available free =>
        match grabNext available (env.choice round) p.clientMac free with
        | none => some ({ h with available := available }, none)
        | some (available, free) =>
          let h := ({ h with available := available }.lock now p.clientMac free (5 * second)).setXid
            now p
          if env.ping round (ipAdd h.start free) then
            -- the source resets `free` to 0 here, not to the -1 that asks for a new index
            retry env now p fuel (round + 1) false 0
              ((h.evict now p.clientMac).quarantine now free)
          else
            some ((h.lock now p.clientMac free (5 * second)).replaceXid now p, some free)

/-- The block at the `reply` label. -/
def replyOffer (env : Env) (h : DHCPHandler) (networkIP : String) (p : Packet)
    (answer : Answer) (free : Int) : Answer :=
  let answer := { answer with ip := beBytes (ipAdd h.start free) }
  match buildReplyOptions env.toReplyEnv h.options p networkIP p.clientMac with
  | none => answer
  | some options =>
    { answer with d := some {
        messageType := .offer
        serverId := h.ip
        yiaddr := some (ipAdd h.start free)
        leaseDuration := h.leaseDuration
        options := selectOrderOrAll env.toReplyEnv options
          (options optionParameterRequestList) } }

/-- `goto retry` with the variables as the DISCOVER case declares them, then `reply`. -/
def allocate (env : Env) (fuel : ℕ) (now : Int) (h : DHCPHandler) (networkIP : String)
    (p : Packet) (answer : Answer) : Option (DHCPHandler × Answer) :=
  (retry env now p fuel 0 true (-1) h).map fun r =>
    match r.2 with
    | none => (r.1, answer)
    | some free => (r.1, replyOffer env r.1 networkIP p answer free)

/-- `hwcache.Replace` for 5 seconds, then `reply`; no answer when the key is gone. -/
def confirm (env : Env) (now : Int) (h : DHCPHandler) (networkIP : String) (p : Packet)
    (answer : Answer) (free : Int) : DHCPHandler × Answer :=
  match h.hwcache.replace now p.clientMac free (5 * second) with
  | none => (h, answer)
  | some hwcache =>
    let h := { h with hwcache := hwcache }
    (h, replyOffer env h networkIP p answer free)

def serveDiscover (env : Env) (fuel : ℕ) (now : Int) (h : DHCPHandler) (networkIP : String)
    (p : Packet) (answer : Answer) : Option (DHCPHandler × Answer) :=
  match h.ipAssigned.lookup p.clientMac with
  | some position => some (h, replyOffer env h networkIP p answer position.toNat)
  | none =>
    match h.hwcache.get now p.clientMac with
    | none => allocate env fuel now h networkIP p answer
    | some x =>
      if h.ownerOf x = p.clientMac then some (confirm env now h networkIP p answer x)
      else if h.ownerOf x = FreeMac then
        let h := h.evict now p.clientMac
        let r := h.available.reserveIPIndex (safeIntToUint64 x) p.clientMac
        let h := { h with available := r.1 }
        if r.2.1 = none ∧ r.2.2 = p.clientMac then some (confirm env now h networkIP p answer x)
        else allocate env fuel now h networkIP p answer
      else allocate env fuel now h networkIP p answer

/-! ## REQUEST and INFORM -/

def nakReply (h : DHCPHandler) : Reply where
  messageType := .nak
  serverId := h.ip
  yiaddr := none
  leaseDuration := 0
  options := []

/-- What the REQUEST case decides about a valid requested address. -/
inductive Verdict
  | unknown
  | duplicate
  | nak
  | ack (index : Int)
deriving DecidableEq, Repr

def judge (now : Int) (g : Globals) (h : DHCPHandler) (p : Packet) (t : MessageType)
    (addr : IPv4) : Verdict × Globals × DHCPHandler :=
  let leaseNum := ipRange h.start addr - 1
  if 0 ≤ leaseNum ∧ leaseNum < h.leaseRange then
    match h.ipAssigned.lookup p.clientMac with
    | some position =>
      if (position.toNat : Int) = leaseNum then (.ack position.toNat, g, h) else (.nak, g, h)
    | none =>
      match h.hwcache.get now p.clientMac with
      | none => (.unknown, g, h)
      | some index =>
        if ipAdd h.start index = addr then
          match g.requestGlobalTransactionCache.get now (p.cacheKey t) with
          | some _ => (.duplicate, g, h)
          | none =>
            let g := { g with requestGlobalTransactionCache :=
              g.requestGlobalTransactionCache.set now (p.cacheKey t) 1 (1 * second) }
            if h.ownerOf index = p.clientMac then (.ack index, g, h) else (.nak, g, h)
        else
          -- the key is the decimal transaction id, DISCOVER writes the hex text of its bytes
          match h.xid.get now (toString p.xid.toNat) with
          | some 1 => (.nak, g, h.evict now p.clientMac)
          | _ => (.nak, g, h)
  else (.nak, g, h)

/-- The ACK branch. -/
def acknowledge (env : Env) (now : Int) (g : Globals) (h : DHCPHandler) (networkIP : String)
    (p : Packet) (answer : Answer) (addr : IPv4) (index : Int) :
    Globals × DHCPHandler × Answer :=
  match buildReplyOptions env.toReplyEnv h.options p networkIP p.clientMac with
  | none => (g, h, answer)
  | some options =>
    let lifetime := h.leaseDuration + 15 * second
    let reply : Reply := {
      messageType := .ack
      serverId := h.ip
      yiaddr := some addr
      leaseDuration := h.leaseDuration
      options := selectOrderOrAll env.toReplyEnv options (options optionParameterRequestList) }
    ({ g with
        globalIpCache := g.globalIpCache.set now (ipString addr) p.clientMac lifetime
        globalMacCache := g.globalMacCache.set now p.clientMac (ipString addr) lifetime },
      (h.lock now p.clientMac index lifetime).reserve index p.clientMac,
      { answer with d := some reply })

/-- A server identifier of four bytes that is not the handler's own address. -/
def namesOtherServer (h : DHCPHandler) (p : Packet) : Bool :=
  match p.options optionServerIdentifier with
  | some v => v.length == 4 && beUint32 v != some h.ip
  | none => false

/-- The four bytes of a requested address that is not `0.0.0.0`. -/
def validAddress (reqIP : Bytes) : Option IPv4 :=
  if reqIP.length = 4 then
    match beUint32 reqIP with
    | some a => if a = 0 then none else some a
    | none => none
  else none

def serveRequest (env : Env) (now : Int) (g : Globals) (h : DHCPHandler) (networkIP : String)
    (p : Packet) (t : MessageType) (answer : Answer) : Globals × DHCPHandler × Answer :=
  if namesOtherServer h p then (g, h, {})
  else
    let answer := { answer with ip := p.reqIP }
    match validAddress p.reqIP with
    | none => (g, h, { answer with d := some (nakReply h) })
    | some addr =>
      match judge now g h p t addr with
      | (.unknown, g, h) => (g, h, {})
      | (.duplicate, g, h) => (g, h, answer)
      | (.nak, g, h) => (g, h, { answer with d := some (nakReply h) })
      | (.ack index, g, h) => acknowledge env now g h networkIP p answer addr index

/-! ## RELEASE and DECLINE -/

/-- Give back the named address if the client holds it: the body that the RELEASE and the
DECLINE case share. The deletion from the hardware cache runs in a goroutine without delay
and is part of the step. -/
def retire (now : Int) (h : DHCPHandler) (p : Packet) : DHCPHandler :=
  match (to4 p.reqIP).bind beUint32 with
  | none => h
  | some addr =>
    let leaseNum := ipRange h.start addr - 1
    if 0 ≤ leaseNum ∧ leaseNum < h.leaseRange then
      match h.hwcache.get now p.clientMac with
      | none => h
      | some x =>
        if leaseNum = x ∧ h.ownerOf x = p.clientMac then
          (h.quarantine now leaseNum).evict now p.clientMac
        else h
    else h

def serveRelease (now : Int) (h : DHCPHandler) (p : Packet) (answer : Answer) :
    DHCPHandler × Answer := (retire now h p, answer)

def serveDecline (now : Int) (h : DHCPHandler) (p : Packet) (answer : Answer) :
    DHCPHandler × Answer := (retire now h p, answer)

/-! ## The gate and the switch -/

def serveMessage (env : Env) (fuel : ℕ) (now : Int) (g : Globals) (h : DHCPHandler)
    (networkIP : String) (p : Packet) (t : MessageType) (answer : Answer) :
    Option (Globals × DHCPHandler × Answer) :=
  match t with
  | .discover => (serveDiscover env fuel now h networkIP p answer).map fun r => (g, r.1, r.2)
  | .request | .inform => some (serveRequest env now g h networkIP p t answer)
  | .release => some (g, (serveRelease now h p answer).1, (serveRelease now h p answer).2)
  | .decline => some (g, (serveDecline now h p answer).1, (serveDecline now h p answer).2)
  | .offer | .ack | .nak => some (g, h, { answer with d := some (nakReply h) })

/-- A packet whose key was seen within the last second is dropped. -/
def serveHandler (env : Env) (fuel : ℕ) (now : Int) (g : Globals) (h : DHCPHandler)
    (networkIP : String) (p : Packet) (t : MessageType) (answer : Answer) :
    Option (Globals × DHCPHandler × Answer) :=
  match g.globalTransactionCache.get now (p.cacheKey t) with
  | some _ => some (g, h, answer)
  | none =>
    let g := { g with globalTransactionCache :=
      g.globalTransactionCache.set now (p.cacheKey t) 1 (1 * second) }
    serveMessage env fuel now g h networkIP p t answer

/-- One round of the detection loop: does the body break with this network? -/
def Network.selects (v : Network) (p : Packet) : Bool :=
  if v.dhcpHandler.layer2 && (p.giaddr == 0 || v.network.contains p.ciaddr) then
    !(p.ciaddr != 0 && !v.network.contains p.ciaddr)
  else if p.giaddr == 0 && v.network.contains p.ciaddr then true
  else (p.giaddr != 0 && v.network.contains p.giaddr) || v.network.contains p.ciaddr

/-- The server branch of `ServeDHCP` on an interface with the listed networks. -/
def serveNetworks (env : Env) (fuel : ℕ) (now : Int) (g : Globals) (p : Packet)
    (t : MessageType) (answer : Answer) : List Network → Option (Globals × List Network × Answer)
  | [] => some (g, [], answer)
  | v :: rest =>
    if v.selects p then
      (serveHandler env fuel now g v.dhcpHandler v.network.text p t answer).map fun r =>
        (r.1, { v with dhcpHandler := r.2.1 } :: rest, r.2.2)
    else
      (serveNetworks env fuel now g p t answer rest).map fun r => (r.1, v :: r.2.1, r.2.2)

end StandaloneDHCP
