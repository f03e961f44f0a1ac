import ProxyTun.Library.Conversation
import ProxyTun.Tunnel.Socks5Connect

/-!
# The SOCKS5 handshake against any proxy

A proxy may answer with anything, and a `recv` or a `send` may fail. `socks5_connect` is held
against the client of the protocol, which offers its methods, logs in if the proxy wants it to
and it can, and asks for the destination.
-/
namespace ProxyTun
open Library Handshake

/-- A socket whose calls return what a script says. A `recv` fails after the last reply, and a
`send` succeeds after the last result. -/
structure ScriptedSocket where
  replies : List (Option (List Byte))
  sends : List Bool
  log : List (Exchanged (List Byte) (Option (List Byte)))
  deriving DecidableEq

namespace ScriptedSocket

def delivers (s : ScriptedSocket) : Bool := s.sends.headD true

def sent (s : ScriptedSocket) (data : List Byte) : ScriptedSocket :=
  { s with sends := s.sends.tail, log := s.log ++ [.sent data s.delivers] }

/-- What the next `recv` of at most `size` bytes returns. -/
def reply (s : ScriptedSocket) (size : ℕ) : Option (List Byte) :=
  (s.replies.headD none).map fun r => r.take size

/-- The request that was sent last. -/
def request (s : ScriptedSocket) : List Byte := (requests s.log).getLast?.getD []

def received (s : ScriptedSocket) (size : ℕ) : ScriptedSocket :=
  { s with replies := s.replies.tail, log := s.log ++ [.received s.request (s.reply size)] }

def answer : (op : SocketOp) → ScriptedSocket → op.Result × ScriptedSocket
  | .send data, s => (s.delivers, s.sent data)
  | .recv size, s => (s.reply size, s.received size)

theorem log_exchange (s : ScriptedSocket) (data : List Byte) (size : ℕ) :
    ((s.sent data).received size).log =
      s.log ++ [.sent data s.delivers, .received data ((s.sent data).reply size)] := by
  have hrequest : (s.sent data).request = data := by
    simp [request, sent, requests, Exchanged.request?]
  rw [received, hrequest]
  simp [sent]

end ScriptedSocket

/-- What the handshake returns on the socket, unless it fails, and the socket after it. -/
abbrev Handshake.dialogue {α : Type} (h : Handshake α) (s : ScriptedSocket) :
    Option α × ScriptedSocket := Code.outcome ScriptedSocket.answer h s

namespace Handshake

variable {α : Type}

theorem outcome_check {σ : Type} (handle : (op : SocketOp) → σ → op.Result × σ) (ok : Bool)
    (message : CStr) (s : σ) :
    Code.outcome handle (check ok message) s = (if ok then some () else none, s) := by
  cases ok <;> rfl

theorem check_bind_dialogue (ok : Bool) (message : CStr) (f : Unit → Handshake α)
    (s : ScriptedSocket) :
    (check ok message >>= f).dialogue s = if ok then (f ()).dialogue s else (none, s) := by
  rw [dialogue, Code.outcome_bind, outcome_check]
  cases ok <;> rfl

theorem sendAll_bind_dialogue (data : List Byte) (message : CStr) (f : Unit → Handshake α)
    (s : ScriptedSocket) :
    (sendAll data message >>= f).dialogue s =
      if s.delivers then (f ()).dialogue (s.sent data) else (none, s.sent data) := by
  have hsend : Code.outcome ScriptedSocket.answer (sendAll data message) s =
      (if s.delivers then some () else none, s.sent data) := by
    rw [sendAll, Code.outcome_issue_bind]
    exact outcome_check _ s.delivers message (s.sent data)
  rw [dialogue, Code.outcome_bind, hsend]
  cases s.delivers <;> rfl

theorem recv_bind_dialogue (size : ℕ) (f : Option (List Byte) → Handshake α)
    (s : ScriptedSocket) :
    (recv size >>= f).dialogue s = (f (s.reply size)).dialogue (s.received size) := by
  rw [dialogue, recv, Code.outcome_issue_bind]
  rfl

end Handshake

namespace ScriptedSocket

variable {answers : List Byte → Option (List Byte) → Bool}

/-- From this socket on, what happens until the result is a conversation of the client. -/
def Follows (s : ScriptedSocket) (answers : List Byte → Option (List Byte) → Bool)
    (client : Client (List Byte) (Option (List Byte))) (result : Option Unit × ScriptedSocket) :
    Prop :=
  ∃ log, result.2.log = s.log ++ log ∧ Conversation answers client result.1.isSome log

theorem follows_ask (size : ℕ) {s : ScriptedSocket} {data : List Byte}
    {next : Option (List Byte) → Client (List Byte) (Option (List Byte))}
    {result : Option Unit × ScriptedSocket}
    (hundelivered : s.delivers = false → result = (none, s.sent data))
    (hrefused : s.delivers = true → answers data ((s.sent data).reply size) = false →
      result = (none, (s.sent data).received size))
    (hanswered : s.delivers = true → answers data ((s.sent data).reply size) = true →
      ((s.sent data).received size).Follows answers (next ((s.sent data).reply size)) result) :
    s.Follows answers (.ask data next) result := by
  cases hdelivers : s.delivers with
  | false =>
    rw [hundelivered hdelivers]
    exact ⟨[.sent data false], by simp [sent, hdelivers], .undelivered data next⟩
  | true =>
    have hlog := s.log_exchange data size
    rw [hdelivers] at hlog
    cases hanswers : answers data ((s.sent data).reply size) with
    | false =>
      rw [hrefused hdelivers hanswers]
      exact ⟨_, hlog, .refused data next _ hanswers⟩
    | true =>
      obtain ⟨log, hlog', hconversation⟩ := hanswered hdelivers hanswers
      refine ⟨.sent data true :: .received data ((s.sent data).reply size) :: log, ?_,
        .answered data next _ _ log hanswers hconversation⟩
      rw [hlog', hlog, List.append_assoc]
      rfl

end ScriptedSocket

namespace Socks5

def offeredMethods (creds : Credentials) : List Byte := (methodOffer creds).drop 2

/-- The proxy's reply lets the client go on: it chooses a method that was offered, accepts the
login, or accepts the command. -/
def answers (creds : Credentials) (request : List Byte) (reply : Option (List Byte)) : Bool :=
  if request = methodOffer creds then
    (offeredMethods creds).any fun method => reply = some [5, method]
  else if request = loginRequest creds then reply = some [1, 0]
  else reply.any fun r => 10 ≤ r.length && r.take 2 = [5, 0]

def clientAfter (creds : Credentials) (dest : Ip × Port) (choice : Option (List Byte)) :
    Client (List Byte) (Option (List Byte)) :=
  if creds.useAuth ∧ choice = some [5, 2] then
    .ask (loginRequest creds) fun _ => .ask (connectRequest dest) fun _ => .done
  else .ask (connectRequest dest) fun _ => .done

/-- The client of the protocol. -/
def client (creds : Credentials) (dest : Ip × Port) :
    Client (List Byte) (Option (List Byte)) :=
  .ask (methodOffer creds) (clientAfter creds dest)

def readConnect : List Byte → Option (Ip × Port)
  | [5, 1, 0, 1, a, b, c, d, hi, lo] => some (ipv4 a b c d, hi ++ lo)
  | _ => none

theorem readConnect_connectRequest (dest : Ip × Port) :
    readConnect (connectRequest dest) = some dest := by
  simp [readConnect, connectRequest, ipv4_octets, port_bytes]

theorem loginRequest_ne_methodOffer (creds : Credentials) :
    loginRequest creds ≠ methodOffer creds := by
  unfold loginRequest methodOffer
  split <;> simp

theorem connectRequest_ne_methodOffer (creds : Credentials) (dest : Ip × Port) :
    connectRequest dest ≠ methodOffer creds := by
  unfold connectRequest methodOffer
  split <;> simp

theorem connectRequest_ne_loginRequest (creds : Credentials) (dest : Ip × Port) :
    connectRequest dest ≠ loginRequest creds := by
  simp [connectRequest, loginRequest]

theorem login_dialogue (m : Messages) (creds : Credentials) (s : ScriptedSocket) :
    (login m creds).dialogue s =
      if s.delivers then
        (if (s.sent (loginRequest creds)).reply 2 = some [1, 0] then some () else none,
          (s.sent (loginRequest creds)).received 2)
      else (none, s.sent (loginRequest creds)) := by
  rw [login, sendAll_bind_dialogue, recv_bind_dialogue, dialogue, outcome_check]
  simp only [decide_eq_true_eq]

/-- What both engines do about the proxy's choice, whatever the proxy goes on to answer. -/
def Converses (creds : Credentials) (negotiate : Byte → Handshake Unit) : Prop :=
  ∀ method s, (negotiate method).dialogue s =
    if method = 2 ∧ creds.useAuth then (login Linux.socks5Messages creds).dialogue s
    else (if method = 0 then some () else none, s)

end Socks5

theorem Windows.converses (creds : Credentials) :
    Socks5.Converses creds (Windows.negotiate creds) := by
  intro method s
  unfold Windows.negotiate
  by_cases hmethod : method = 2
  · subst hmethod
    rw [if_pos rfl, check_bind_dialogue, check_bind_dialogue]
    simp only [creds.username_length, creds.password_length, decide_true, Bool.and_true, if_true,
      true_and, Socks5.login_dialogue]
    rfl
  · rw [if_neg hmethod, if_neg fun h => hmethod h.1, dialogue, outcome_check]
    simp only [decide_eq_true_eq]

theorem Linux.converses (creds : Credentials) :
    Socks5.Converses creds (Linux.negotiate creds) := by
  intro method s
  unfold Linux.negotiate
  by_cases hlogin : method = 2 ∧ creds.useAuth = true
  · rw [if_pos (by simpa using hlogin), if_pos hlogin]
  · rw [if_neg (by simpa using hlogin), if_neg hlogin, dialogue, outcome_check]
    simp only [decide_eq_true_eq]

namespace Socks5

variable {creds : Credentials} {negotiate : Byte → Handshake Unit}

def command (m : Messages) (dest : Ip × Port) : Handshake Unit := do
  sendAll (connectRequest dest) m.requestFailed
  let reply ← recv 10
  check (reply.any fun r => 10 ≤ r.length && r.take 2 = [5, 0]) (m.refused reply)

theorem answers_connectRequest (creds : Credentials) (dest : Ip × Port)
    (reply : Option (List Byte)) :
    answers creds (connectRequest dest) reply =
      reply.any fun r => 10 ≤ r.length && r.take 2 = [5, 0] := by
  rw [answers, if_neg (connectRequest_ne_methodOffer creds dest),
    if_neg (connectRequest_ne_loginRequest creds dest)]

theorem command_dialogue (m : Messages) (creds : Credentials) (dest : Ip × Port)
    (s : ScriptedSocket) :
    (command m dest).dialogue s =
      if s.delivers then
        (if answers creds (connectRequest dest) ((s.sent (connectRequest dest)).reply 10)
          then some () else none, (s.sent (connectRequest dest)).received 10)
      else (none, s.sent (connectRequest dest)) := by
  rw [command, sendAll_bind_dialogue, recv_bind_dialogue, dialogue, outcome_check,
    answers_connectRequest]

/-- The handshake up to the proxy's choice, and what follows it. -/
theorem connect_dialogue (m : Messages) (dest : Ip × Port) (s : ScriptedSocket) :
    (connect m negotiate creds dest).dialogue s =
      if s.delivers then
        if ((s.sent (methodOffer creds)).reply 2).any fun r => r.length = 2 && r.head? = some 5
        then (negotiate ((((s.sent (methodOffer creds)).reply 2).getD []).getD 1 0) >>= fun _ =>
            command m dest).dialogue ((s.sent (methodOffer creds)).received 2)
        else (none, (s.sent (methodOffer creds)).received 2)
      else (none, s.sent (methodOffer creds)) := by
  rw [connect, sendAll_bind_dialogue, recv_bind_dialogue, check_bind_dialogue]
  rfl

theorem negotiate_bind_dialogue (h : Converses creds negotiate) (m : Messages) (dest : Ip × Port)
    (method : Byte) (s : ScriptedSocket) :
    (negotiate method >>= fun _ => command m dest).dialogue s =
      if method = 2 ∧ creds.useAuth then
        ((login Linux.socks5Messages creds).dialogue s).1.elim
          (none, ((login Linux.socks5Messages creds).dialogue s).2) fun _ =>
            (command m dest).dialogue ((login Linux.socks5Messages creds).dialogue s).2
      else if method = 0 then (command m dest).dialogue s else (none, s) := by
  rw [dialogue, Code.outcome_bind]
  have hmethod := h method s
  rw [dialogue] at hmethod
  rw [hmethod]
  split_ifs <;> rfl

theorem command_follows (m : Messages) (creds : Credentials) (dest : Ip × Port)
    (s : ScriptedSocket) :
    s.Follows (answers creds) (.ask (connectRequest dest) fun _ => .done)
      ((command m dest).dialogue s) := by
  rw [command_dialogue m creds]
  refine ScriptedSocket.follows_ask 10 ?_ ?_ ?_
  · intro hdelivers
    rw [if_neg (by simp [hdelivers])]
  · intro hdelivers hrefused
    rw [if_pos hdelivers, hrefused, if_neg (by decide)]
  · intro hdelivers hanswered
    rw [if_pos hdelivers, hanswered, if_pos rfl]
    exact ⟨[], by simp, .finished⟩

theorem answers_methodOffer (creds : Credentials) (reply : Option (List Byte)) :
    answers creds (methodOffer creds) reply = true ↔
      reply = some [5, 0] ∨ creds.useAuth = true ∧ reply = some [5, 2] := by
  rw [answers, if_pos rfl, offeredMethods, methodOffer]
  cases creds.useAuth <;> simp

theorem answers_loginRequest (creds : Credentials) (reply : Option (List Byte)) :
    answers creds (loginRequest creds) reply = true ↔ reply = some [1, 0] := by
  rw [answers, if_neg (loginRequest_ne_methodOffer creds), if_pos rfl, decide_eq_true_eq]

theorem negotiate_follows (h : Converses creds negotiate) (m : Messages) (dest : Ip × Port)
    {method : Byte} (hoffered : answers creds (methodOffer creds) (some [5, method]) = true)
    (s : ScriptedSocket) :
    s.Follows (answers creds) (clientAfter creds dest (some [5, method]))
      ((negotiate method >>= fun _ => command m dest).dialogue s) := by
  rw [negotiate_bind_dialogue h, login_dialogue, clientAfter]
  rw [answers_methodOffer] at hoffered
  rcases hoffered with hchoice | ⟨hauth, hchoice⟩
  · obtain rfl : method = 0 := by simpa using hchoice
    rw [if_neg (by simp), if_neg (by simp), if_pos rfl]
    exact command_follows m creds dest s
  · obtain rfl : method = 2 := by simpa using hchoice
    rw [if_pos ⟨hauth, rfl⟩, if_pos ⟨rfl, hauth⟩]
    refine ScriptedSocket.follows_ask 2 ?_ ?_ ?_
    · intro hdelivers
      simp [hdelivers]
    · intro hdelivers hrefused
      have hreply : (s.sent (loginRequest creds)).reply 2 ≠ some [1, 0] := by
        intro hconsent
        rw [(answers_loginRequest creds _).mpr hconsent] at hrefused
        cases hrefused
      rw [if_pos hdelivers, if_neg hreply]
      rfl
    · intro hdelivers hanswered
      rw [if_pos hdelivers, if_pos ((answers_loginRequest creds _).mp hanswered)]
      exact command_follows m creds dest _

/-- A choice that passes the first check and was not offered ends the handshake. -/
theorem negotiate_refused (h : Converses creds negotiate) (m : Messages) (dest : Ip × Port)
    {method : Byte} (hrefused : answers creds (methodOffer creds) (some [5, method]) = false)
    (s : ScriptedSocket) :
    (negotiate method >>= fun _ => command m dest).dialogue s = (none, s) := by
  have hmethod : ¬ (method = 0 ∨ creds.useAuth = true ∧ method = 2) := by
    intro hmethod
    have hanswers := (answers_methodOffer creds (some [5, method])).mpr (by simpa using hmethod)
    rw [hrefused] at hanswers
    cases hanswers
  rw [negotiate_bind_dialogue h, if_neg fun hlogin => hmethod (.inr hlogin.symm),
    if_neg fun hzero => hmethod (.inl hzero)]

theorem choice_format (reply : Option (List Byte)) :
    (reply.any fun r => r.length = 2 && r.head? = some 5) = true ↔
      ∃ method, reply = some [5, method] := by
  constructor
  · intro h
    rcases reply with _ | _ | ⟨version, _ | ⟨method, _ | ⟨_, _⟩⟩⟩
    · simp at h
    · simp at h
    · simp at h
    · obtain rfl : version = 5 := by simpa using h
      exact ⟨method, rfl⟩
    · simp at h
  · rintro ⟨method, rfl⟩
    rfl

theorem connect_follows (h : Converses creds negotiate) (m : Messages) (dest : Ip × Port)
    (s : ScriptedSocket) :
    s.Follows (answers creds) (client creds dest)
      ((connect m negotiate creds dest).dialogue s) := by
  rw [connect_dialogue]
  refine ScriptedSocket.follows_ask 2 ?_ ?_ ?_
  · intro hdelivers
    rw [if_neg (by simp [hdelivers])]
  · intro hdelivers hrefused
    rw [if_pos hdelivers]
    split_ifs with hformat
    · obtain ⟨method, hreply⟩ := (choice_format _).mp hformat
      rw [hreply] at hrefused ⊢
      exact negotiate_refused h m dest hrefused _
    · rfl
  · intro hdelivers hanswered
    have hformat : ∃ method, (s.sent (methodOffer creds)).reply 2 = some [5, method] := by
      rcases (answers_methodOffer creds _).mp hanswered with hnone | ⟨-, hlogin⟩
      · exact ⟨0, hnone⟩
      · exact ⟨2, hlogin⟩
    rw [if_pos hdelivers, if_pos ((choice_format _).mpr hformat)]
    obtain ⟨method, hreply⟩ := hformat
    rw [hreply] at hanswered ⊢
    exact negotiate_follows h m dest hanswered _

/-- What a handshake that succeeded, or failed, has sent and received. -/
structure Sound (creds : Credentials) (dest : Ip × Port) (ok : Bool)
    (log : List (Exchanged (List Byte) (Option (List Byte)))) : Prop where
  chosen : ok = true → ∃ method ∈ offeredMethods creds,
    (replies log).head? = some (some [5, method]) ∧
      (method = 2 → (replies log)[1]? = some (some [1, 0]))
  accepted : ok = true → ∃ before rest, log = before ++
    [.sent (connectRequest dest) true, .received (connectRequest dest) (some (5 :: 0 :: rest))]
  credentials : loginRequest creds ∈ requests log ↔
    creds.useAuth = true ∧ (replies log).head? = some (some [5, 2])
  stops : ∀ before event after, log = before ++ event :: after →
    event.failed (answers creds) = true → after = []
  destination : ∀ request ∈ requests log,
    request = methodOffer creds ∨ request = loginRequest creds ∨ readConnect request = some dest

variable {dest : Ip × Port} {ok : Bool}
  {log : List (Exchanged (List Byte) (Option (List Byte)))}

theorem client_all (creds : Credentials) (dest : Ip × Port) :
    (client creds dest).All fun request =>
      request = methodOffer creds ∨ request = loginRequest creds ∨
        readConnect request = some dest := by
  refine ⟨.inl rfl, fun choice => ?_⟩
  have hcommand := readConnect_connectRequest dest
  unfold clientAfter
  split_ifs
  · exact ⟨.inr (.inl rfl), fun _ => ⟨.inr (.inr hcommand), fun _ => trivial⟩⟩
  · exact ⟨.inr (.inr hcommand), fun _ => trivial⟩

theorem command_accepted
    (h : Conversation (answers creds) (.ask (connectRequest dest) fun _ => .done) true log) :
    ∃ rest, log = [.sent (connectRequest dest) true,
      .received (connectRequest dest) (some (5 :: 0 :: rest))] := by
  obtain ⟨reply, rest, hanswers, rfl, hrest⟩ := Conversation.ask_true_iff.mp h
  obtain ⟨-, rfl⟩ := Conversation.done_iff.mp hrest
  rw [answers_connectRequest] at hanswers
  rcases reply with _ | _ | ⟨version, _ | ⟨status, bound⟩⟩
  · cases hanswers
  · simp at hanswers
  · simp at hanswers
  · obtain ⟨-, rfl, rfl⟩ : _ ∧ version = 5 ∧ status = 0 := by simpa using hanswers
    exact ⟨bound, rfl⟩

theorem chosen_and_accepted (h : Conversation (answers creds) (client creds dest) true log) :
    (∃ method ∈ offeredMethods creds, (replies log).head? = some (some [5, method]) ∧
      (method = 2 → (replies log)[1]? = some (some [1, 0]))) ∧
    ∃ before rest, log = before ++ [.sent (connectRequest dest) true,
      .received (connectRequest dest) (some (5 :: 0 :: rest))] := by
  obtain ⟨choice, log', hchoice, rfl, hafter⟩ := Conversation.ask_true_iff.mp h
  unfold clientAfter at hafter
  split_ifs at hafter with hlogin
  · obtain ⟨hauth, rfl⟩ := hlogin
    obtain ⟨consent, log'', hconsent, rfl, hcommand⟩ := Conversation.ask_true_iff.mp hafter
    obtain rfl := (answers_loginRequest creds consent).mp hconsent
    obtain ⟨rest, rfl⟩ := command_accepted hcommand
    exact ⟨⟨2, by simp [offeredMethods, methodOffer, hauth], rfl, fun _ => rfl⟩,
      [_, _, _, _], rest, rfl⟩
  · obtain rfl : choice = some [5, 0] :=
      ((answers_methodOffer creds choice).mp hchoice).resolve_right hlogin
    obtain ⟨rest, rfl⟩ := command_accepted hafter
    refine ⟨⟨0, ?_, rfl, fun hmethod => absurd hmethod (by decide)⟩, [_, _], rest, rfl⟩
    unfold offeredMethods methodOffer
    split <;> simp

theorem login_sent_iff (h : Conversation (answers creds) (client creds dest) ok log) :
    loginRequest creds ∈ requests log ↔
      creds.useAuth = true ∧ (replies log).head? = some (some [5, 2]) := by
  have hfirst : loginRequest creds ∉ [methodOffer creds] := by
    simpa using loginRequest_ne_methodOffer creds
  cases h with
  | undelivered => exact iff_of_false hfirst (by simp [replies, Exchanged.reply?])
  | refused _ _ choice hrefused =>
    refine iff_of_false hfirst ?_
    rintro ⟨hauth, hhead⟩
    obtain rfl : choice = some [5, 2] := Option.some.inj hhead
    rw [(answers_methodOffer creds _).mpr (.inr ⟨hauth, rfl⟩)] at hrefused
    cases hrefused
  | answered _ _ choice _ rest hchoice hrest =>
    change loginRequest creds ∈ methodOffer creds :: requests rest ↔
      creds.useAuth = true ∧ some choice = some (some [5, 2])
    rw [List.mem_cons, or_iff_right (loginRequest_ne_methodOffer creds), Option.some.injEq]
    unfold clientAfter at hrest
    split_ifs at hrest with hlogin
    · refine iff_of_true ?_ hlogin
      cases hrest with
      | undelivered => exact List.mem_cons_self
      | refused => exact List.mem_cons_self
      | answered => exact List.mem_cons_self
    · refine iff_of_false (fun hmem => ?_) hlogin
      have hcommand := hrest.request_mem (P := fun request => request = connectRequest dest)
        ⟨rfl, fun _ => trivial⟩ hmem
      exact connectRequest_ne_loginRequest creds dest hcommand.symm

theorem sound_of_conversation (h : Conversation (answers creds) (client creds dest) ok log) :
    Sound creds dest ok log where
  chosen := by
    rintro rfl
    exact (chosen_and_accepted h).1
  accepted := by
    rintro rfl
    exact (chosen_and_accepted h).2
  credentials := login_sent_iff h
  stops _ _ _ hlog hfailed := h.eq_nil_of_failed hlog hfailed
  destination _ hmem := h.request_mem (client_all creds dest) hmem

/-- The engines send the same bytes to every proxy, and get the same result. -/
theorem connect_agree {negotiate' : Byte → Handshake Unit} (h : Converses creds negotiate)
    (h' : Converses creds negotiate') (m m' : Messages) (dest : Ip × Port) (s : ScriptedSocket) :
    (connect m negotiate creds dest).dialogue s =
      (connect m' negotiate' creds dest).dialogue s := by
  simp only [connect_dialogue, negotiate_bind_dialogue h, negotiate_bind_dialogue h',
    command_dialogue _ creds]

end Socks5

theorem socks5Connect_follows (pf : Platform) (creds : Credentials) (dest : Ip × Port)
    (s : ScriptedSocket) :
    s.Follows (Socks5.answers creds) (Socks5.client creds dest)
      ((socks5Connect pf creds dest).dialogue s) := by
  cases pf
  case windows => exact Socks5.connect_follows (Windows.converses creds) _ dest s
  case linux => exact Socks5.connect_follows (Linux.converses creds) _ dest s

end ProxyTun
