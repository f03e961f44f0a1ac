import ProxyTun.Core.Rules
import ProxyTun.Tunnel.ProxyHost

/-!
# Setting the proxy

`SetProxyConfig` takes a configuration only if the name of the proxy resolves. The Windows engine
resolves it again for each connection. The Linux engine keeps the address, and a connection that
finds none resolves the name and keeps the result.
-/
namespace ProxyTun

/-- The globals that `SetProxyConfig` writes. -/
structure ProxyConfig where
  host : CStr
  port : Port
  type : ProxyType
  username : CStr
  password : CStr
  /-- `g_proxy_ip_cached` of the Linux engine, 0 if there is none. The Windows engine has no such
  global and leaves the field alone. -/
  cached : Ip
  deriving DecidableEq, Repr

namespace ProxyConfig

/-- The arguments of `SetProxyConfig`, where `none` is `NULL`. -/
structure Args where
  type : ℤ
  proxyIp : Option CStr
  proxyPort : Port
  username : Option CStr
  password : Option CStr

/-- `(type == PROXY_TYPE_HTTP) ? PROXY_TYPE_HTTP : PROXY_TYPE_SOCKS5`. -/
def proxyType (type : ℤ) : ProxyType := if type = 0 then .http else .socks5

namespace Windows

/-- A user name or password copied to its global of 256 bytes. -/
def stored : Option CStr → CStr
  | some text => if text ≠ [] then text.take 255 else []
  | none => []

/-- `ProxyTun_SetProxyConfig`. -/
def setProxyConfig (getaddrinfo : CStr → AddrInfo) (args : Args) (s : ProxyConfig) :
    Bool × ProxyConfig :=
  match args.proxyIp with
  | none => (false, s)
  | some proxyIp =>
    if proxyIp = [] ∨ args.proxyPort = 0 then (false, s)
    else if (resolveHostname getaddrinfo proxyIp).address = 0 then (false, s)
    else
      (true, { s with
        host := proxyIp.take 255
        port := args.proxyPort
        type := proxyType args.type
        username := stored args.username
        password := stored args.password })

/-- The address of the proxy that `connection_handler` connects to, if it does not give up. -/
def connectionHandler (getaddrinfo : CStr → AddrInfo) (s : ProxyConfig) :
    Option Ip × ProxyConfig :=
  let socks5Ip := (resolveHostname getaddrinfo s.host).address
  if socks5Ip = 0 then (none, s) else (some socks5Ip, s)

end Windows

namespace Linux

def stored : Option CStr → CStr
  | some text => text.take 255
  | none => []

/-- `ProxyBridge_SetProxyConfig`, which assigns the cached address before it looks at it. -/
def setProxyConfig (getaddrinfo : CStr → AddrInfo) (args : Args) (s : ProxyConfig) :
    Bool × ProxyConfig :=
  match args.proxyIp with
  | none => (false, s)
  | some proxyIp =>
    if proxyIp = [] ∨ args.proxyPort = 0 then (false, s)
    else
      let s := { s with cached := (resolveHostname getaddrinfo proxyIp).address }
      if s.cached = 0 then (false, s)
      else
        (true, { s with
          host := proxyIp.take 255
          port := args.proxyPort
          type := proxyType args.type
          username := stored args.username
          password := stored args.password })

/-- The address of the proxy that `connection_handler` connects to, if it does not give up. -/
def connectionHandler (getaddrinfo : CStr → AddrInfo) (s : ProxyConfig) :
    Option Ip × ProxyConfig :=
  let proxyIp := s.cached
  if proxyIp = 0 then
    let proxyIp := (resolveHostname getaddrinfo s.host).address
    if proxyIp = 0 then (none, s) else (some proxyIp, { s with cached := proxyIp })
  else (some proxyIp, s)

end Linux

def setProxyConfig : Platform → (CStr → AddrInfo) → Args → ProxyConfig → Bool × ProxyConfig
  | .windows => Windows.setProxyConfig
  | .linux => Linux.setProxyConfig

def connectionHandler : Platform → (CStr → AddrInfo) → ProxyConfig → Option Ip × ProxyConfig
  | .windows => Windows.connectionHandler
  | .linux => Linux.connectionHandler

/-- The addresses that connections go to one after the other, each with the resolver as it then
is. -/
def addresses (platform : Platform) : List (CStr → AddrInfo) → ProxyConfig → List (Option Ip)
  | [], _ => []
  | getaddrinfo :: later, s =>
    let next := connectionHandler platform getaddrinfo s
    next.1 :: addresses platform later next.2

variable {platform : Platform} {getaddrinfo : CStr → AddrInfo} {args : Args} {s : ProxyConfig}

/-- The name or the port is missing, which both engines find before they resolve anything. -/
def Args.Missing (args : Args) : Prop := args.proxyIp.getD [] = [] ∨ args.proxyPort = 0

/-- A call leaves the configuration as it was and the later connections where they went. -/
def Keeps (platform : Platform) (getaddrinfo : CStr → AddrInfo) (args : Args) (s : ProxyConfig) :
    Prop :=
  (setProxyConfig platform getaddrinfo args s).2 = s ∧
    ∀ resolvers, addresses platform resolvers (setProxyConfig platform getaddrinfo args s).2 =
      addresses platform resolvers s

theorem Windows.rejected_eq (h : (Windows.setProxyConfig getaddrinfo args s).1 = false) :
    (Windows.setProxyConfig getaddrinfo args s).2 = s := by
  unfold Windows.setProxyConfig at h ⊢
  cases hip : args.proxyIp with
  | none => rfl
  | some proxyIp =>
    rw [hip] at h
    dsimp only at h ⊢
    split_ifs at h ⊢
    · rfl
    · rfl

/-- A call that is rejected on Linux has cleared the cached address, unless it did not come to the
name. -/
theorem Linux.rejected_eq (h : (Linux.setProxyConfig getaddrinfo args s).1 = false) :
    (args.Missing ∧ (Linux.setProxyConfig getaddrinfo args s).2 = s) ∨
      (¬ args.Missing ∧ (Linux.setProxyConfig getaddrinfo args s).2 = { s with cached := 0 }) := by
  unfold Linux.setProxyConfig Args.Missing at *
  cases hip : args.proxyIp with
  | none => exact Or.inl ⟨Or.inl rfl, rfl⟩
  | some proxyIp =>
    rw [hip] at h
    dsimp only at h ⊢
    rw [Option.getD_some]
    split_ifs at h ⊢ with hmissing hzero
    · exact Or.inl ⟨hmissing, rfl⟩
    · exact Or.inr ⟨hmissing, by rw [hzero]⟩

/-- A rejected call keeps the configuration exactly when the engine caches no address, at all or
at the time, or the arguments are turned down before the name is resolved. -/
theorem rejected_keeps_iff (h : (setProxyConfig platform getaddrinfo args s).1 = false) :
    Keeps platform getaddrinfo args s ↔
      platform = .windows ∨ args.proxyIp.getD [] = [] ∨ args.proxyPort = 0 ∨ s.cached = 0 := by
  have hkeeps : Keeps platform getaddrinfo args s ↔
      (setProxyConfig platform getaddrinfo args s).2 = s := by
    refine ⟨And.left, fun hstate => ⟨hstate, ?_⟩⟩
    intro resolvers
    rw [hstate]
  rw [hkeeps]
  cases platform with
  | windows => exact iff_of_true (Windows.rejected_eq h) (Or.inl rfl)
  | linux =>
    have hwindows : Platform.linux ≠ .windows := by decide
    rw [or_iff_right hwindows, ← or_assoc]
    change (Linux.setProxyConfig getaddrinfo args s).2 = s ↔ args.Missing ∨ s.cached = 0
    rcases Linux.rejected_eq h with ⟨hmissing, hstate⟩ | ⟨hmissing, hstate⟩
    · exact iff_of_true hstate (Or.inl hmissing)
    · rw [or_iff_right hmissing, hstate]
      constructor
      · intro hsame
        exact (congrArg ProxyConfig.cached hsame).symm
      · intro hzero
        rw [← hzero]

/-- A resolver that knows no name. -/
def offline : CStr → AddrInfo := fun _ => .failed

/-- The proxy is known by name and its address was kept. -/
def configured : ProxyConfig :=
  ⟨"proxy".toList, 1080, .socks5, [], [], ipv4 10 0 0 1⟩

/-- The name does not resolve. -/
def unknownHost : Args := ⟨1, some "nowhere".toList, 1080, none, none⟩

/-- With nothing cached there is nothing to lose. -/
theorem rejected_keeps_uncached :
    Keeps .linux offline unknownHost { configured with cached := 0 } :=
  (rejected_keeps_iff (by decide +kernel)).mpr (by decide +kernel)

/-- The call is rejected, the address that was kept is gone, and while the resolver is away the
next connection is given up. -/
theorem rejected_forgets :
    (setProxyConfig .linux offline unknownHost configured).1 = false ∧
      ¬ Keeps .linux offline unknownHost configured ∧
      addresses .linux [offline] configured = [some (ipv4 10 0 0 1)] ∧
      addresses .linux [offline] (setProxyConfig .linux offline unknownHost configured).2 =
        [none] := by
  refine ⟨by decide +kernel, ?_, by decide +kernel, by decide +kernel⟩
  rintro ⟨hstate, -⟩
  have hcached := congrArg ProxyConfig.cached hstate
  exact absurd hcached (by decide +kernel)

end ProxyConfig

end ProxyTun
