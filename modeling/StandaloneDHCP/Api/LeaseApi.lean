import StandaloneDHCP.Server.ServerRun

/-! The lease endpoints (`api.go`): a lookup by address, a lookup by hardware address, and the
release of a lease. The release finds the network through `GlobalMacCache` and shortens the entry
in the `hwcache` of that network's handler. The two caches have lifetimes of their own, and an
answer is an ACK as soon as the first one has an entry. -/
namespace StandaloneDHCP
open Lib
set_option autoImplicit false

/-! ## The handlers -/

/-- An answer: the status, and either the text of `unifiedapierrors.Error` or the body. -/
structure ApiReply (β : Type) where
  status : ℕ
  body : Except String β
deriving DecidableEq

namespace ApiReply
variable {β : Type}

def error (message : String) (status : ℕ) : ApiReply β := ⟨status, .error message⟩

def ok (body : β) : ApiReply β := ⟨200, .ok body⟩

end ApiReply

/-- `EndsAt` is the zero time for an entry without expiration. -/
structure Node where
  mac : String
  ip : String
  endsAt : Option Int
deriving DecidableEq

structure Info where
  status : String
  mac : String
  network : String
deriving DecidableEq

namespace Server

def handleIP2Mac (s : Server) (ip : String) : ApiReply Node :=
  match s.globals.globalIpCache.getWithExpiration s.now ip with
  | some index => .ok ⟨index.object, ip, index.expiration⟩
  | none => .error "Cannot find match for this IP address" 404

def handleMac2Ip (s : Server) (mac : String) : ApiReply Node :=
  match s.globals.globalMacCache.getWithExpiration s.now mac with
  | some index => .ok ⟨mac, index.object, index.expiration⟩
  | none => .error "Cannot find match for this MAC address" 404

def handleReleaseIP (s : Server) (mac : String) : Server × ApiReply Info :=
  let scope := s.interfaceScopeFromMac mac
  ({ s with intsNet := scope.after },
    if scope.netWork = "" then
      .error "Cannot find an active lease for this MAC address" 404
    else .ok ⟨"ACK", mac, scope.netWork⟩)

theorem handleReleaseIP_step (s : Server) (mac : String) :
    s.step (.release mac) = some (s.handleReleaseIP mac).1 := rfl

theorem handleReleaseIP_status (s : Server) (mac : String) :
    (s.handleReleaseIP mac).2.status = 200 ↔ (s.interfaceScopeFromMac mac).netWork ≠ "" := by
  unfold handleReleaseIP
  dsimp only
  split
  · next hempty => simp [ApiReply.error, hempty]
  · next hne => simp [ApiReply.ok, hne]

end Server

/-! ## What a release touches -/

/-- The networks that hold the address. -/
def holding (ip : Bytes) (networks : List Network) : List Network :=
  networks.filter fun v => v.network.containsIP ip

/-- The handler has an unexpired entry of the client. -/
def DHCPHandler.Leases (h : DHCPHandler) (now : Int) (mac : String) : Prop :=
  (h.hwcache.get now mac).isSome = true

instance (h : DHCPHandler) (now : Int) (mac : String) : Decidable (h.Leases now mac) :=
  inferInstanceAs (Decidable (_ = true))

/-- The entry of a client is left with three seconds. -/
theorem DHCPHandler.peek_shorten {h : DHCPHandler} {now : Int} {mac : String} {x : Int}
    (hget : h.hwcache.get now mac = some x) :
    (h.shorten now mac).hwcache.peek mac = some ⟨x, some (now + 3 * second)⟩ := by
  have hreplace : h.hwcache.replace now mac x (3 * second) =
      some (h.hwcache.set now mac x (3 * second)) :=
    Cache.replace_eq_some.mpr ⟨⟨x, hget⟩, rfl⟩
  have hdeadline : h.hwcache.deadline now (3 * second) = some (now + 3 * second) :=
    Cache.deadline_of_pos _ _ (by decide)
  simp only [shorten, hget, hreplace, Option.getD_some, Cache.peek_set, hdeadline]

/-- What a release makes of a network. -/
def Network.released (now : Int) (mac : String) (ip : Bytes) (v : Network) : Network :=
  if v.network.containsIP ip then { v with dhcpHandler := v.dhcpHandler.shorten now mac } else v

section Scope
variable (now : Int) (mac : String) (ip : Bytes)

theorem scopeNetworks_removed (networks : List Network) (netWork : String) :
    (scopeNetworks now mac ip networks netWork).removed =
      ((holding ip networks).map Network.dhcpHandler).filter fun h => h.Leases now mac := by
  induction networks generalizing netWork with
  | nil => rfl
  | cons v rest ih =>
    rw [scopeNetworks]
    split
    · next hcontains =>
      simp only [ih, holding, List.filter_cons, hcontains, if_true, List.map_cons]
      by_cases hleases : v.dhcpHandler.Leases now mac
      · have hsome : (v.dhcpHandler.hwcache.get now mac).isSome = true := hleases
        simp [hleases, hsome]
      · have hnone : ¬ (v.dhcpHandler.hwcache.get now mac).isSome = true := hleases
        simp [hleases, hnone]
    · next hcontains =>
      rw [ih]
      simp [holding, hcontains]

theorem scopeNetworks_after (networks : List Network) (netWork : String) :
    (scopeNetworks now mac ip networks netWork).after =
      networks.map fun v => v.released now mac ip := by
  induction networks generalizing netWork with
  | nil => rfl
  | cons v rest ih =>
    rw [scopeNetworks, List.map_cons, Network.released]
    split
    · simp only [ih]
    · simp only [ih]

theorem scopeInterfaces_removed (intsNet : List ServerInterface) (netWork : String) :
    (scopeInterfaces now mac ip intsNet netWork).removed =
      ((holding ip (intsNet.flatMap ServerInterface.network)).map
        Network.dhcpHandler).filter fun h => h.Leases now mac := by
  induction intsNet generalizing netWork with
  | nil => rfl
  | cons v rest ih =>
    rw [scopeInterfaces]
    simp only [ih, scopeNetworks_removed]
    simp [holding]

theorem scopeInterfaces_after (intsNet : List ServerInterface) (netWork : String) :
    (scopeInterfaces now mac ip intsNet netWork).after = intsNet.map fun v =>
      { v with network := v.network.map fun n => n.released now mac ip } := by
  induction intsNet generalizing netWork with
  | nil => rfl
  | cons v rest ih =>
    rw [scopeInterfaces, List.map_cons]
    simp only [ih, scopeNetworks_after]

/-- Each handler that is logged as removed is left with three seconds of its lease. -/
theorem scopeInterfaces_shortened {intsNet : List ServerInterface} {netWork : String}
    {h : DHCPHandler} (hh : h ∈ (scopeInterfaces now mac ip intsNet netWork).removed) :
    ∃ v ∈ (scopeInterfaces now mac ip intsNet netWork).after, ∃ n ∈ v.network, ∃ x,
      n.dhcpHandler = h.shorten now mac ∧
        n.dhcpHandler.hwcache.peek mac = some ⟨x, some (now + 3 * second)⟩ := by
  rw [scopeInterfaces_removed] at hh
  obtain ⟨hmap, hleases⟩ := List.mem_filter.mp hh
  obtain ⟨n, hn, rfl⟩ := List.mem_map.mp hmap
  obtain ⟨hflat, hcontains⟩ := List.mem_filter.mp hn
  obtain ⟨v, hv, hnv⟩ := List.mem_flatMap.mp hflat
  obtain ⟨x, hx⟩ := Option.isSome_iff_exists.mp (of_decide_eq_true hleases)
  have hreleased : (n.released now mac ip).dhcpHandler = n.dhcpHandler.shorten now mac := by
    rw [Network.released, if_pos hcontains]
  rw [scopeInterfaces_after]
  refine ⟨_, List.mem_map_of_mem hv, n.released now mac ip, List.mem_map_of_mem hnv, x,
    hreleased, ?_⟩
  rw [hreleased]
  exact DHCPHandler.peek_shorten hx

end Scope

namespace Server

end Server
end StandaloneDHCP
