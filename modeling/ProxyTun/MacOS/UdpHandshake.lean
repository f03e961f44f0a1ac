import ProxyTun.Library.Resumption
import ProxyTun.MacOS.Socks5Requests
import ProxyTun.MacOS.UdpParsers

/-!
# The UDP handshake of the macOS extension

The extension asks a SOCKS5 server for an association in a handshake of its own, which offers no
login. Both handshakes are held against the same server, whatever it replies.
-/
namespace ProxyTun.MacOS
open Library Library.Code Exchange CheckedReads

/-- What an access outside of the data stops the process with. -/
def rangeTrap : CStr := "Index out of range".toList

/-- Code that may be stopped by an access. -/
def Exchange.ofReads {α : Type} : Reads α → Exchange α
  | .ok a => pure a
  | .error _ => throw rangeTrap

/-- The request for an association, and the relay's host and port in the reply. -/
def sendSOCKS5UDPAssociate : Exchange (CStr × Port) := do
  write [5, 3, 0, 1, 0, 0, 0, 0, 0, 0] "SOCKS5 UDP ASSOCIATE failed".toList
  let data ← readMinimumLength 10 512 "SOCKS5 UDP ASSOCIATE response error".toList
  require "SOCKS5 UDP ASSOCIATE rejected".toList
    (data.any fun d => 10 ≤ d.length && d.take 2 = [5, 0])
  ofReads (parseSOCKS5Address (data.getD []) 3)

/-- The handshake for a UDP flow. Whoever gives up in it leaves the connection open. -/
def proxyUDPFlowViaSOCKS5 : Exchange (CStr × Port) := do
  write [5, 1, 0] "SOCKS5 UDP greeting failed".toList
  let data ← readMinimumLength 2 2 "SOCKS5 UDP greeting response failed".toList
  require "SOCKS5 UDP greeting response failed".toList
    (data.any fun d => d.length = 2 && d.getD 1 1 = 0)
  sendSOCKS5UDPAssociate

/-- A server: what the next read returns after the messages that it was sent. -/
abbrev Server := List (List Byte) → Except CStr (Option (List Byte))

/-- A connection to the server is the messages that were written on it. -/
def Server.answer (server : Server) :
    (op : ConnectionOp) → List (List Byte) → op.Result × List (List Byte)
  | .write data, sent => (none, sent ++ [data])
  | .readMinimumLength _ _, sent => (server sent, sent)

/-- How the code ends with the server, and the messages that it has written then. -/
def Exchange.against {α : Type} (h : Exchange α) (server : Server) (sent : List (List Byte)) :
    Except CStr α × List (List Byte) := h.run.eval server.answer sent

/-- The methods in a greeting. -/
def offered (greeting : List Byte) : List Byte := greeting.drop 2

/-- The handshake for a TCP flow up to its request. -/
def authenticate (sys : Foundation) (login : Login) : Exchange Unit := do
  write (greeting login) "SOCKS5 greeting write failed".toList
  let data ← readMinimumLength 2 2 "SOCKS5 greeting response failed".toList
  require "SOCKS5 invalid greeting response".toList (data.any fun d => d.length = 2)
  let version := (data.getD []).getD 0 0
  let method := (data.getD []).getD 1 0
  require ("SOCKS5 invalid version: ".toList ++ decimal version.toNat) (version = 5)
  if method = 0 then pure ()
  else if method = 2 then sendSOCKS5Auth sys (login.username.getD []) (login.password.getD [])
  else throw ("SOCKS5 no acceptable auth method: ".toList ++ decimal method.toNat)

/-- The handshake for a UDP flow up to its request. -/
def authenticateUdp : Exchange Unit := do
  write [5, 1, 0] "SOCKS5 UDP greeting failed".toList
  let data ← readMinimumLength 2 2 "SOCKS5 UDP greeting response failed".toList
  require "SOCKS5 UDP greeting response failed".toList
    (data.any fun d => d.length = 2 && d.getD 1 1 = 0)

theorem proxyUDPFlowViaSOCKS5_eq :
    proxyUDPFlowViaSOCKS5 = authenticateUdp >>= fun _ => sendSOCKS5UDPAssociate := by
  simp only [proxyUDPFlowViaSOCKS5, authenticateUdp, failing_bind_assoc]

variable {sys : Foundation} {login : Login} {server : Server}

theorem handleSOCKS5Proxy_eq (destination : CStr) (port : Port) :
    handleSOCKS5Proxy sys login destination port =
      authenticate sys login >>= fun _ => sendSOCKS5ConnectRequest sys destination port := by
  have hmethod (method : Byte) :
      (if method = 0 then sendSOCKS5ConnectRequest sys destination port
        else if method = 2 then do
          sendSOCKS5Auth sys (login.username.getD []) (login.password.getD [])
          sendSOCKS5ConnectRequest sys destination port
        else throw ("SOCKS5 no acceptable auth method: ".toList ++ decimal method.toNat)) =
      (if method = 0 then pure ()
        else if method = 2 then
          sendSOCKS5Auth sys (login.username.getD []) (login.password.getD [])
        else throw ("SOCKS5 no acceptable auth method: ".toList ++ decimal method.toNat)) >>=
        fun _ => sendSOCKS5ConnectRequest sys destination port := by
    split_ifs
    · rfl
    · rfl
    · rfl
  simp only [handleSOCKS5Proxy, authenticate, failing_bind_assoc, hmethod]

/-- The TCP handshake is through with the login: the server wants none, or gets one and takes it. -/
def LetsIn (sys : Foundation) (login : Login) (server : Server) : Prop :=
  server [greeting login] = .ok (some [5, 0]) ∨
    server [greeting login] = .ok (some [5, 2]) ∧
      (sys.count (login.username.getD []) ≤ 255 ∧ sys.count (login.password.getD []) ≤ 255) ∧
      ∃ version, server [greeting login,
        loginRequest sys (login.username.getD []) (login.password.getD [])] =
          .ok (some [version, 0])

/-- The server wants no login from a client that offers none. -/
def WantsNoLogin (server : Server) : Prop := ∃ version, server [[5, 1, 0]] = .ok (some [version, 0])

namespace Exchange

/-- The code gives up with a message, having written no more than this. -/
def GivesUp {α : Type} (h : Exchange α) (server : Server) (sent : List (List Byte)) : Prop :=
  ∃ message, (message ≠ conversionTrap ∧ message ≠ rangeTrap) ∧
    h.against server [] = (.error message, sent)

section
variable {α β : Type} {sent : List (List Byte)}

theorem write_bind_against (data : List Byte) (failed : CStr) (f : Unit → Exchange α) :
    (write data failed >>= f).against server sent = (f ()).against server (sent ++ [data]) := rfl

theorem issue_bind_against (op : ConnectionOp) (f : op.Result → Exchange α) :
    against (issue CStr op >>= f) server sent =
      (f (server.answer op sent).1).against server (server.answer op sent).2 := rfl

theorem read_bind_against {data : Option (List Byte)} (h : server sent = .ok data)
    (min max : ℕ) (failed : CStr) (f : Option (List Byte) → Exchange α) :
    (readMinimumLength min max failed >>= f).against server sent =
      (f data).against server sent := by
  rw [readMinimumLength, failing_bind_assoc, issue_bind_against, Server.answer, h]
  rfl

theorem read_bind_against_error {error : CStr} (h : server sent = .error error)
    (min max : ℕ) (failed : CStr) (f : Option (List Byte) → Exchange α) :
    (readMinimumLength min max failed >>= f).against server sent =
      (.error (failed ++ ": ".toList ++ error), sent) := by
  rw [readMinimumLength, failing_bind_assoc, issue_bind_against, Server.answer, h]
  rfl

theorem require_against (message : CStr) (ok : Bool) :
    against (require message ok) server sent =
      (if ok then .ok () else .error message, sent) := by
  cases ok <;> rfl

theorem require_bind_against (message : CStr) (ok : Bool) (f : Unit → Exchange α) :
    against (require message ok >>= f) server sent =
      if ok then (f ()).against server sent else (.error message, sent) := by
  cases ok <;> rfl

/-- Code behind code that gives up is not reached. -/
theorem bind_against_error {h : Exchange β} {message : CStr} {sent' : List (List Byte)}
    (herror : h.against server sent = (.error message, sent')) (f : β → Exchange α) :
    (h >>= f).against server sent = (.error message, sent') := by
  unfold against at herror ⊢
  rw [ExceptT.run_bind, Code.eval_bind, herror]
  rfl

theorem isPrefix_against (h : Exchange α) (sent : List (List Byte)) :
    sent <+: (h.against server sent).2 := by
  unfold against
  induction h.run generalizing sent with
  | ret a => exact List.prefix_rfl
  | call op next ih =>
    cases op with
    | write data => exact (List.prefix_append sent [data]).trans (ih _ _)
    | readMinimumLength min max => exact ih _ _

theorem isPrefix_bind_against (h : Exchange β) (f : β → Exchange α) (sent : List (List Byte)) :
    (h.against server sent).2 <+: ((h >>= f).against server sent).2 := by
  unfold against
  rw [ExceptT.run_bind, Code.eval_bind]
  cases (h.run.eval server.answer sent).1 with
  | error message => exact List.prefix_rfl
  | ok b => exact isPrefix_against (f b) _

end
end Exchange

theorem isChoice_iff {data : Option (List Byte)} {method : Byte} :
    (data.any fun d => d.length = 2 && d.getD 1 1 = method) = true ↔
      ∃ version, data = some [version, method] := by
  cases data with
  | none => simp
  | some d =>
    rcases d with _ | ⟨a, _ | ⟨b, _ | ⟨c, d⟩⟩⟩ <;> simp

/-- A message of two bytes, of which the second says whether the server agrees. -/
def agrees (data : Option (List Byte)) : Bool := data.any fun d => d.length = 2 && d.getD 1 1 = 0

section
variable {sent : List (List Byte)} (data : List Byte) (unsent unread message : CStr)

theorem ask_ok_iff :
    ((ask data unsent 2 2 unread message agrees).against server sent).1 = .ok () ↔
      ∃ version, server (sent ++ [data]) = .ok (some [version, 0]) := by
  rw [ask, write_bind_against]
  cases hreply : server (sent ++ [data]) with
  | error error =>
    rw [read_bind_against_error hreply]
    simp
  | ok reply =>
    rw [read_bind_against hreply, require_against]
    simp only [Except.ok.injEq, ← isChoice_iff]
    change _ ↔ agrees reply = true
    split_ifs with h <;> simp [h]

theorem ask_refused {reply : Option (List Byte)} (h : server (sent ++ [data]) = .ok reply)
    (hrefused : agrees reply = false) :
    (ask data unsent 2 2 unread message agrees).against server sent =
      (.error message, sent ++ [data]) := by
  rw [ask, write_bind_against, read_bind_against h, require_against, hrefused]
  rfl

end

theorem authenticateUdp_eq :
    authenticateUdp = ask [5, 1, 0] "SOCKS5 UDP greeting failed".toList 2 2
      "SOCKS5 UDP greeting response failed".toList "SOCKS5 UDP greeting response failed".toList
      agrees := rfl

theorem authenticateUdp_ok_iff :
    (authenticateUdp.against server []).1 = .ok () ↔ WantsNoLogin server :=
  ask_ok_iff [5, 1, 0] _ _ _

theorem auth_ok_iff (username password : CStr) (sent : List (List Byte)) :
    ((sendSOCKS5Auth sys username password).against server sent).1 = .ok () ↔
      (sys.count username ≤ 255 ∧ sys.count password ≤ 255) ∧
        ∃ version, server (sent ++ [loginRequest sys username password]) =
          .ok (some [version, 0]) := by
  by_cases hcounts : sys.count username ≤ 255 ∧ sys.count password ≤ 255
  · rw [sendSOCKS5Auth_eq hcounts.1 hcounts.2, and_iff_right hcounts]
    exact ask_ok_iff _ _ _ _
  · rw [sendSOCKS5Auth_eq_trap hcounts]
    refine iff_of_false (fun h => ?_) fun h => hcounts h.1
    cases h

theorem authenticate_against {version method : Byte}
    (h : server [greeting login] = .ok (some [version, method])) :
    (authenticate sys login).against server [] =
      if version = 5 then
        if method = 0 then (.ok (), [greeting login])
        else if method = 2 then
          (sendSOCKS5Auth sys (login.username.getD []) (login.password.getD [])).against server
            [greeting login]
        else (.error ("SOCKS5 no acceptable auth method: ".toList ++ decimal method.toNat),
          [greeting login])
      else (.error ("SOCKS5 invalid version: ".toList ++ decimal version.toNat),
        [greeting login]) := by
  rw [authenticate, write_bind_against, List.nil_append, read_bind_against h]
  simp only [require_bind_against, Option.any_some, Option.getD_some, List.getD_cons_zero,
    List.getD_cons_succ, List.length_cons, List.length_nil, decide_true, if_true,
    decide_eq_true_eq]
  split_ifs <;> rfl

theorem choice_or (data : Option (List Byte)) :
    (∃ version method, data = some [version, method]) ∨
      data.any (fun d => d.length = 2) = false := by
  cases data with
  | none => exact .inr rfl
  | some d =>
    rcases d with _ | ⟨a, _ | ⟨b, _ | ⟨c, d⟩⟩⟩
    · exact .inr rfl
    · exact .inr rfl
    · exact .inl ⟨a, b, rfl⟩
    · exact .inr (by simp)

theorem choice_inj {version method version' method' : Byte} :
    (Except.ok (some [version, method]) : Except CStr (Option (List Byte))) =
      .ok (some [version', method']) ↔ version = version' ∧ method = method' := by
  simp

theorem authenticate_ok_iff :
    ((authenticate sys login).against server []).1 = .ok () ↔ LetsIn sys login server := by
  cases hreply : server [greeting login] with
  | error error =>
    rw [authenticate, write_bind_against, List.nil_append, read_bind_against_error hreply,
      LetsIn, hreply]
    simp
  | ok data =>
    rcases choice_or data with ⟨version, method, rfl⟩ | hmalformed
    · rw [authenticate_against hreply, LetsIn, hreply, choice_inj, choice_inj]
      split_ifs with hversion hnone hlogin
      · exact iff_of_true rfl (.inl ⟨hversion, hnone⟩)
      · rw [auth_ok_iff, or_iff_right fun h => hnone h.2]
        exact (and_iff_right ⟨hversion, hlogin⟩).symm
      · exact iff_of_false (fun h => by cases h) fun h => h.elim (hnone ·.2) (hlogin ·.1.2)
      · exact iff_of_false (fun h => by cases h) fun h => h.elim (hversion ·.1) (hversion ·.1.1)
    · have hnever (method : Byte) :
          (Except.ok data : Except CStr (Option (List Byte))) ≠ .ok (some [5, method]) := by
        intro hdata
        rw [Except.ok.inj hdata] at hmalformed
        cases hmalformed
      rw [authenticate, write_bind_against, List.nil_append, read_bind_against hreply,
        require_bind_against, hmalformed, LetsIn, hreply]
      exact iff_of_false (fun h => by cases h) fun h => h.elim (hnever 0) (hnever 2 ·.1)

/-- UDP is through wherever TCP is, and no handshake goes on after a choice that was not offered. -/
structure AuthenticatesAlike (sys : Foundation) (login : Login) (server : Server) : Prop where
  through : ((authenticate sys login).against server []).1 = .ok () →
    (authenticateUdp.against server []).1 = .ok ()
  tcpStops : ∀ version method, server [greeting login] = .ok (some [version, method]) →
    method ∉ offered (greeting login) → ∀ destination port,
      (handleSOCKS5Proxy sys login destination port).GivesUp server [greeting login]
  udpStops : ∀ version method, server [[5, 1, 0]] = .ok (some [version, method]) →
    method ∉ offered [5, 1, 0] → proxyUDPFlowViaSOCKS5.GivesUp server [[5, 1, 0]]

theorem udp_gives_up {version method : Byte}
    (h : server [[5, 1, 0]] = .ok (some [version, method])) (hmethod : method ∉ offered [5, 1, 0]) :
    proxyUDPFlowViaSOCKS5.GivesUp server [[5, 1, 0]] := by
  have hrefused : agrees (some [version, method]) = false := by
    have hne : method ≠ 0 := by simpa [offered] using hmethod
    simpa [agrees] using hne
  refine ⟨"SOCKS5 UDP greeting response failed".toList, by decide, ?_⟩
  rw [proxyUDPFlowViaSOCKS5_eq, authenticateUdp_eq]
  exact bind_against_error (ask_refused [5, 1, 0] _ _ _ h hrefused) _

theorem ne_trap_of_head {message : CStr} (h : message.head? = some 'S') :
    message ≠ conversionTrap ∧ message ≠ rangeTrap := by
  constructor
  · rintro rfl
    cases h
  · rintro rfl
    cases h

theorem auth_goes_on {h : Exchange Unit} {f : Unit → Exchange Unit} {username password : CStr}
    {sent : List (List Byte)} {message : CStr}
    (hauth : h.against server [] = (sendSOCKS5Auth sys username password).against server sent)
    (hmessage : message ≠ conversionTrap) :
    (h >>= f).against server [] ≠ (.error message, sent) := by
  intro hend
  by_cases hcounts : sys.count username ≤ 255 ∧ sys.count password ≤ 255
  · rw [sendSOCKS5Auth_eq hcounts.1 hcounts.2, ask, write_bind_against] at hauth
    have hwritten : sent ++ [loginRequest sys username password] <+: (h.against server []).2 := by
      rw [hauth]
      exact isPrefix_against _ _
    have hlonger := (hwritten.trans (isPrefix_bind_against h f [])).length_le
    rw [hend] at hlonger
    simp only [List.length_append, List.length_singleton] at hlonger
    omega
  · rw [sendSOCKS5Auth_eq_trap hcounts] at hauth
    rw [bind_against_error hauth] at hend
    exact hmessage (Except.error.inj (congrArg Prod.fst hend)).symm

theorem tcp_gives_up_iff (destination : CStr) (port : Port) {version method : Byte}
    (h : server [greeting login] = .ok (some [version, method]))
    (hmethod : method ∉ offered (greeting login)) :
    (handleSOCKS5Proxy sys login destination port).GivesUp server [greeting login] ↔
      ¬ (version = 5 ∧ method = 2) := by
  have hnone : method ≠ 0 := by
    rintro rfl
    unfold greeting at hmethod
    split_ifs at hmethod <;> exact hmethod (by decide)
  have hauth := @authenticate_against sys login server version method h
  rw [handleSOCKS5Proxy_eq]
  split_ifs at hauth with hversion hlogin
  · refine iff_of_false ?_ fun hnot => hnot ⟨hversion, hlogin⟩
    rintro ⟨message, ⟨hconversion, -⟩, hend⟩
    exact auth_goes_on hauth hconversion hend
  · refine iff_of_true ⟨_, ne_trap_of_head ?_, bind_against_error hauth _⟩
      fun hboth => hlogin hboth.2
    rw [List.head?_append_of_ne_nil _ (by decide)]
    decide
  · refine iff_of_true ⟨_, ne_trap_of_head ?_, bind_against_error hauth _⟩
      fun hboth => hversion hboth.1
    rw [List.head?_append_of_ne_nil _ (by decide)]
    decide

/-- For every login and every server, the two handshakes authenticate alike exactly when a server
that lets TCP in with a login wants none from UDP, and a server chooses the login only of a client
that has one. -/
theorem authenticates_alike_iff (sys : Foundation) (login : Login) (server : Server) :
    AuthenticatesAlike sys login server ↔
      (login.isGiven = false → server [[5, 1, 0]] ≠ .ok (some [5, 2])) ∧
        (login.isGiven = true → LetsIn sys login server → WantsNoLogin server) := by
  constructor
  · intro h
    refine ⟨fun hgiven hchosen => ?_, fun _ hin => ?_⟩
    · have hgreeting : greeting login = [5, 1, 0] := by rw [greeting, hgiven]; rfl
      rw [← hgreeting] at hchosen
      have hmethod : (2 : Byte) ∉ offered (greeting login) := by
        rw [hgreeting]
        decide
      exact (tcp_gives_up_iff [] 0 hchosen hmethod).mp (h.tcpStops 5 2 hchosen hmethod [] 0)
        ⟨rfl, rfl⟩
    · rw [← authenticateUdp_ok_iff]
      exact h.through (authenticate_ok_iff.mpr hin)
  · rintro ⟨hunasked, hin⟩
    refine ⟨fun hthrough => ?_, fun version method hchoice hmethod destination port => ?_,
      fun version method hchoice hmethod => udp_gives_up hchoice hmethod⟩
    · rw [authenticateUdp_ok_iff]
      have hlets := authenticate_ok_iff.mp hthrough
      cases hgiven : login.isGiven with
      | true => exact hin hgiven hlets
      | false =>
        have hgreeting : greeting login = [5, 1, 0] := by rw [greeting, hgiven]; rfl
        rw [LetsIn, hgreeting] at hlets
        rcases hlets with hnone | ⟨hchosen, -⟩
        · exact ⟨5, hnone⟩
        · exact absurd hchosen (hunasked hgiven)
    · rw [tcp_gives_up_iff destination port hchoice hmethod]
      rintro ⟨rfl, rfl⟩
      cases hgiven : login.isGiven with
      | true =>
        rw [greeting, hgiven] at hmethod
        exact hmethod (by decide)
      | false =>
        rw [greeting, hgiven] at hchoice
        exact hunasked hgiven hchoice

def userLogin : Login := ⟨some "u".toList, some "p".toList⟩

/-- A server that wants the login. -/
def demandingServer : Server := fun sent =>
  if sent = [[5, 2, 0, 2]] then .ok (some [5, 2])
  else if sent = [[5, 2, 0, 2], [1, 1, 117, 1, 112]] then .ok (some [1, 0])
  else .ok (some [5, 255])

/-- A server that chooses the login whatever it is offered. -/
def presumptuousServer : Server := fun _ => .ok (some [5, 2])

/-- With credentials TCP gets in and UDP does not. Without credentials the TCP handshake sends a
login that it did not offer. -/
theorem authenticates_differently :
    (((authenticate hostNames userLogin).against demandingServer []).1 = .ok () ∧
        (authenticateUdp.against demandingServer []).1 ≠ .ok () ∧
        ¬ AuthenticatesAlike hostNames userLogin demandingServer) ∧
      ¬ AuthenticatesAlike hostNames noLogin presumptuousServer := by
  have hin : ((authenticate hostNames userLogin).against demandingServer []).1 = .ok () :=
    authenticate_ok_iff.mpr (.inr ⟨rfl, by decide, 1, rfl⟩)
  have hout : (authenticateUdp.against demandingServer []).1 ≠ .ok () := by
    rw [Ne, authenticateUdp_ok_iff]
    rintro ⟨version, hversion⟩
    exact absurd (choice_inj.mp hversion).2 (by decide)
  refine ⟨⟨hin, hout, fun h => hout (h.through hin)⟩, fun h => ?_⟩
  exact (@tcp_gives_up_iff hostNames noLogin presumptuousServer [] 0 5 2 rfl (by decide)).mp
    (h.tcpStops 5 2 rfl (by decide) [] 0) ⟨rfl, rfl⟩

end ProxyTun.MacOS
