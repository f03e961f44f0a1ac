import ProxyTun.Core.Rules
import ProxyTun.Library.QuotedText
import ProxyTun.Tunnel.ConnectRequest
import ProxyTun.Tunnel.HttpConnect
import ProxyTun.Tunnel.Socks5Dialogue

/-!
# The test of the proxy

`TestConnection` connects to a target through the proxy, asks for a page there, and reports line by
line in a buffer of its caller. Both engines go through the same stages, with texts of their own.
-/
namespace ProxyTun
open Library Buffer Handshake

/-- What is tested: the proxy of the configuration, and the target. -/
structure TestSetup where
  proxyType : ProxyType
  proxyHost : CStr
  proxyPort : Port
  creds : Credentials
  targetHost : Option CStr
  targetPort : Port

/-- The texts of a test, with the error numbers that only the Windows engine prints. -/
structure TestTexts where
  noProxy : CStr
  invalidTarget : CStr
  startupFailed : ℤ → CStr
  testing : CStr → Port → ProxyType → CStr → Port → CStr
  unresolved : CStr → CStr → CStr
  resolved : CStr → Ip → CStr
  noSocket : ℤ → CStr
  connecting : CStr → Port → CStr
  notConnected : ℤ → CStr
  connected : CStr
  handshakeFailed : ProxyType → CStr
  handshakeDone : ProxyType → CStr
  request : CStr → CStr
  notSent : ℤ → CStr
  sent : CStr
  received : ℤ → ℕ → CStr
  notHttp : CStr
  closed : CStr
  notReceived : ℤ → CStr
  passed : CStr
  failed : CStr

def getRequest (host agent : CStr) : CStr :=
  "GET / HTTP/1.1\r\nHost: ".toList ++ host ++ "\r\nConnection: close\r\nUser-Agent: ".toList ++
    agent ++ "\r\n\r\n".toList

namespace Windows

def errorNumber (error : ℤ) : CStr := " (".toList ++ signedDecimal error ++ ")\n".toList

/-- The bytes of a check mark or of a cross in UTF-8. -/
def mark (last : Char) : CStr := ['\u00e2', '\u009c', last]

def testTexts : TestTexts where
  noProxy := "ERROR: No proxy configured".toList
  invalidTarget := "ERROR: Invalid target host".toList
  startupFailed error :=
    "ERROR: WSAStartup failed (".toList ++ signedDecimal error ++ ")".toList
  testing host port proxyType proxyHost proxyPort :=
    "Testing connection to ".toList ++ host ++ ":".toList ++ decimal port.toNat ++
      " via ".toList ++ proxyType.upperName ++ " proxy ".toList ++ proxyHost ++ ":".toList ++
      decimal proxyPort.toNat ++ "...\n".toList
  unresolved host error :=
    "ERROR: Failed to resolve hostname ".toList ++ host ++ " (".toList ++ error ++ ")\n".toList
  resolved host ip :=
    "Resolved ".toList ++ host ++ " to ".toList ++ formatIpAddress ip ++ "\n".toList
  noSocket error := "ERROR: Socket creation failed".toList ++ errorNumber error
  connecting host port :=
    "Connecting to proxy ".toList ++ host ++ ":".toList ++ decimal port.toNat ++ "...\n".toList
  notConnected error := "ERROR: Failed to connect to proxy".toList ++ errorNumber error
  connected := "Connected to proxy server\n".toList
  handshakeFailed
    | .socks5 => "ERROR: SOCKS5 handshake failed\n".toList
    | .http => "ERROR: HTTP CONNECT failed\n".toList
  handshakeDone
    | .socks5 => "SOCKS5 handshake successful\n".toList
    | .http => "HTTP CONNECT successful\n".toList
  request host := getRequest host "ProxyTun/1.0".toList
  notSent error := "ERROR: Failed to send test request".toList ++ errorNumber error
  sent := "Sent HTTP GET request\n".toList
  received status length :=
    "SUCCESS: Received HTTP ".toList ++ signedDecimal status ++ " response (".toList ++
      decimal length ++ " bytes)\n".toList
  notHttp := "ERROR: Received data but not valid HTTP response\n".toList
  closed := "ERROR: Connection closed by remote host (no data received)\n".toList
  notReceived error :=
    if error = 10060 then "ERROR: Connection timeout - no response received\n".toList
    else "ERROR: Failed to receive response".toList ++ errorNumber error
  passed := '\n' :: (mark '\u0093' ++ " Proxy connection test PASSED\n".toList)
  failed := '\n' :: (mark '\u0097' ++ " Proxy connection test FAILED\n".toList)

end Windows

namespace Linux

def proxyName : ProxyType → CStr
  | .http => "http".toList
  | .socks5 => "socks5".toList

def testTexts : TestTexts where
  noProxy := "error no proxy configured".toList
  invalidTarget := "error invalid target host".toList
  startupFailed _ := []
  testing host port proxyType proxyHost proxyPort :=
    "testing connection to ".toList ++ host ++ ":".toList ++ decimal port.toNat ++
      " via ".toList ++ proxyName proxyType ++ " proxy ".toList ++ proxyHost ++ ":".toList ++
      decimal proxyPort.toNat ++ "\n".toList
  unresolved host error :=
    "error failed to resolve hostname ".toList ++ host ++ ": ".toList ++ error ++ "\n".toList
  resolved host ip :=
    "resolved ".toList ++ host ++ " to ".toList ++ formatIpAddress ip ++ "\n".toList
  noSocket _ := "error socket creation failed\n".toList
  connecting host port :=
    "connecting to proxy ".toList ++ host ++ ":".toList ++ decimal port.toNat ++ "\n".toList
  notConnected _ := "error failed to connect to proxy\n".toList
  connected := "connected to proxy server\n".toList
  handshakeFailed
    | .socks5 => "error socks5 handshake failed\n".toList
    | .http => "error http connect failed\n".toList
  handshakeDone
    | .socks5 => "socks5 handshake successful\n".toList
    | .http => "http connect successful\n".toList
  request host := getRequest host "ProxyBridge/1.0".toList
  notSent _ := "error failed to send test request\n".toList
  sent := "sent http get request\n".toList
  received status length :=
    "success received http ".toList ++ signedDecimal status ++ " response ".toList ++
      decimal length ++ " bytes\n".toList
  notHttp := "error received data but not valid http response\n".toList
  closed := "error failed to receive response\n".toList
  notReceived _ := "error failed to receive response\n".toList
  passed := "\nproxy connection test passed\n".toList
  failed := "\nproxy connection test failed\n".toList

end Linux

def testTexts : Platform → TestTexts
  | .windows => Windows.testTexts
  | .linux => Linux.testTexts

/-- What the calls before the handshake return, and the numbers of errors. Only the Windows engine
starts Winsock. -/
structure TestCalls where
  startup : Except ℤ Unit
  resolved : Except CStr Ip
  socket : Except ℤ Unit
  connect : Except ℤ Unit
  sendError : ℤ
  recvError : ℤ

def TestCalls.started (calls : TestCalls) : Platform → Except ℤ Unit
  | .windows => calls.startup
  | .linux => .ok ()

/-- What is put into the buffer, one text instead of everything or one after the other. -/
inductive TestReport where
  | only (text : CStr)
  | lines (first : CStr) (others : List CStr)

/-- A text that went through `temp_buffer`. -/
def cutText (text : CStr) : CStr := text.take 511

def reported (first : CStr) (others : List CStr) (ret : ℤ) : TestReport × ℤ :=
  (.lines (cutText first) (others.map cutText), ret)

def findHttp (response : List Byte) : Option CStr :=
  QuotedText.findText "HTTP/".toList (cString response)

/-- `sscanf(status_line, "HTTP/%*s %d", &status_code)`, where the number stays 0 if there is none.
-/
def responseStatus (statusLine : CStr) : ℤ :=
  let version := (statusLine.drop 5).dropWhile isSpace
  if version = [] then 0 else (scanInt (version.dropWhile fun c => !isSpace c)).getD 0

def judge (t : TestTexts) (calls : TestCalls) : Option (List Byte) → CStr × Bool
  | none => (t.notReceived calls.recvError, false)
  | some [] => (t.closed, false)
  | some (b :: response) =>
    match findHttp (b :: response) with
    | some statusLine => (t.received (responseStatus statusLine) (b :: response).length, true)
    | none => (t.notHttp, false)

def proxyHandshake (pf : Platform) (setup : TestSetup) (dest : Ip × Port) : Handshake Unit :=
  match setup.proxyType with
  | .socks5 => socks5Connect pf setup.creds dest
  | .http => httpConnect pf setup.creds dest

def sentGet (pf : Platform) (host : CStr) : List Byte :=
  bytesOf (cutText ((testTexts pf).request host))

def readPage (pf : Platform) (setup : TestSetup) (calls : TestCalls) :
    Bool → Code SocketOp SocketOp.Result (List CStr × Bool)
  | true => .call (.recv 1023) fun response =>
    let t := testTexts pf
    let result := judge t calls response
    pure ([t.handshakeDone setup.proxyType, t.sent, result.1,
      if result.2 then t.passed else t.failed], result.2)
  | false =>
    let t := testTexts pf
    pure ([t.handshakeDone setup.proxyType, t.notSent calls.sendError], false)

def askForPage (pf : Platform) (setup : TestSetup) (calls : TestCalls) (host : CStr) :
    Code SocketOp SocketOp.Result (List CStr × Bool) :=
  .call (.send (sentGet pf host)) (readPage pf setup calls)

/-- The test on the socket that is connected to the proxy: the lines it adds, and whether it was
passed. -/
def testOnSocket (pf : Platform) (setup : TestSetup) (calls : TestCalls) (host : CStr) (ip : Ip) :
    Code SocketOp SocketOp.Result (List CStr × Bool) :=
  (proxyHandshake pf setup (ip, setup.targetPort)).run >>= fun
    | .error _ => pure ([(testTexts pf).handshakeFailed setup.proxyType], false)
    | .ok _ => askForPage pf setup calls host

/-- The report on a test that got as far as a connection to the proxy. -/
def connectedReport (pf : Platform) (setup : TestSetup) (host : CStr) (ip : Ip)
    (result : List CStr × Bool) : TestReport × ℤ :=
  reported ((testTexts pf).testing host setup.targetPort setup.proxyType setup.proxyHost
      setup.proxyPort)
    ([(testTexts pf).resolved host ip, (testTexts pf).connecting setup.proxyHost setup.proxyPort,
      (testTexts pf).connected] ++ result.1) (if result.2 then 0 else -1)

/-- `TestConnection` of both engines, up to the buffer. -/
def testConnection (pf : Platform) (setup : TestSetup) (calls : TestCalls) :
    Code SocketOp SocketOp.Result (TestReport × ℤ) :=
  let t := testTexts pf
  if setup.proxyHost = [] ∨ setup.proxyPort = 0 then pure (.only t.noProxy, -1)
  else match setup.targetHost with
    | none => pure (.only t.invalidTarget, -1)
    | some [] => pure (.only t.invalidTarget, -1)
    | some (c :: host) =>
      let first := t.testing (c :: host) setup.targetPort setup.proxyType setup.proxyHost
        setup.proxyPort
      match calls.started pf with
      | .error e => pure (.only (t.startupFailed e), -1)
      | .ok _ =>
        match calls.resolved with
        | .error e => pure (reported first [t.unresolved (c :: host) e] (-1))
        | .ok ip =>
          match calls.socket with
          | .error e => pure (reported first [t.resolved (c :: host) ip, t.noSocket e] (-1))
          | .ok _ =>
            match calls.connect with
            | .error e =>
              pure (reported first [t.resolved (c :: host) ip,
                t.connecting setup.proxyHost setup.proxyPort, t.notConnected e] (-1))
            | .ok _ =>
              testOnSocket pf setup calls (c :: host) ip >>= fun result =>
                pure (connectedReport pf setup (c :: host) ip result)

section ResultBuffer

/-- The bytes of a C string. -/
def stringBytes (text : CStr) : List Byte := (bytesOf text).takeWhile fun b => b ≠ 0

/-- `strncpy_s(buffer, size, text, _TRUNCATE)`, and `strncpy` with its padding and the zero that
is put behind it. -/
def copyText (pf : Platform) (buffer text : List Byte) : Option (List Byte) :=
  match pf with
  | .windows => storeAll buffer 0 (text.take (buffer.length - 1) ++ [0])
  | .linux => do
    let copied := text.take (buffer.length - 1)
    let padded ← storeAll buffer 0
      (copied ++ List.replicate (buffer.length - 1 - copied.length) 0)
    store padded (buffer.length - 1) 0

/-- `strncat_s(buffer, size, text, _TRUNCATE)` and
`strncat(buffer, text, size - strlen(buffer) - 1)`. -/
def appendText (buffer text : List Byte) : Option (List Byte) := do
  let old ← readString buffer
  storeAll buffer old.length (text.take (buffer.length - old.length - 1) ++ [0])

def appendAll (buffer : List Byte) : List (List Byte) → Option (List Byte)
  | [] => some buffer
  | text :: texts => do
    let appended ← appendText buffer text
    appendAll appended texts

/-- The report in the buffer of the caller. -/
def TestReport.write (pf : Platform) (buffer : List Byte) : TestReport → Option (List Byte)
  | .only text => snprintf buffer 0 (stringBytes text)
  | .lines first others => do
    let copied ← copyText pf buffer (stringBytes first)
    appendAll copied (others.map stringBytes)

/-- The bytes of a whole report. -/
def TestReport.bytes : TestReport → List Byte
  | .only text => stringBytes text
  | .lines first others => stringBytes first ++ (others.map stringBytes).flatten

end ResultBuffer

section Dialogue

instance (pf : Platform) (response : List Byte) : Decidable (Accepts pf response) :=
  match pf with
  | .windows => inferInstanceAs (Decidable (_ ∧ _))
  | .linux => inferInstanceAs (Decidable (_ ∧ _))

def handshakeClient (pf : Platform) (setup : TestSetup) (dest : Ip × Port) :
    Client (List Byte) (Option (List Byte)) :=
  match setup.proxyType with
  | .socks5 => Socks5.client setup.creds dest
  | .http => .ask (bytesOf (connectRequest pf setup.creds dest)) fun _ => .done

def handshakeAnswers (pf : Platform) (setup : TestSetup) (request : List Byte)
    (reply : Option (List Byte)) : Bool :=
  match setup.proxyType with
  | .socks5 => Socks5.answers setup.creds request reply
  | .http => reply.any fun response => Accepts pf response

/-- The client of the test: after the handshake it asks for the page. -/
def testClient (pf : Platform) (setup : TestSetup) (host : CStr) (dest : Ip × Port) :
    Client (List Byte) (Option (List Byte)) :=
  (handshakeClient pf setup dest).andThen (.ask (sentGet pf host) fun _ => .done)

/-- The page is answered by anything with `HTTP/` in it. -/
def testAnswers (pf : Platform) (setup : TestSetup) (host : CStr) (request : List Byte)
    (reply : Option (List Byte)) : Bool :=
  if request = sentGet pf host then reply.any fun response => (findHttp response).isSome
  else handshakeAnswers pf setup request reply

theorem head_sentGet (pf : Platform) (host : CStr) : (sentGet pf host).head? = some 71 := by
  cases pf <;> rfl

theorem handshakeClient_all (pf : Platform) (setup : TestSetup) (dest : Ip × Port) :
    (handshakeClient pf setup dest).All fun request => request.head? ≠ some 71 := by
  unfold handshakeClient
  cases setup.proxyType with
  | http =>
    refine ⟨?_, fun _ => trivial⟩
    cases pf <;> exact fun h => by cases h
  | socks5 =>
    have hoffer : (Socks5.methodOffer setup.creds).head? ≠ some 71 := by
      unfold Socks5.methodOffer
      split <;> simp
    have hlogin : (Socks5.loginRequest setup.creds).head? ≠ some 71 := by
      simp [Socks5.loginRequest]
    have hconnect : (Socks5.connectRequest dest).head? ≠ some 71 := by
      simp [Socks5.connectRequest]
    refine ⟨hoffer, fun choice => ?_⟩
    unfold Socks5.clientAfter
    split_ifs
    · exact ⟨hlogin, fun _ => ⟨hconnect, fun _ => trivial⟩⟩
    · exact ⟨hconnect, fun _ => trivial⟩

theorem accepts_windows (reply : Option (List Byte)) :
    (reply.any fun response => Accepts .windows response) =
      (reply.any (fun r => r ≠ []) && (isHttp1 (cString (reply.getD [])) &&
        decide (Windows.statusCode (cString (reply.getD [])) = 200))) := by
  cases reply with
  | none => rfl
  | some response =>
    rw [Bool.eq_iff_iff, Option.any_some, decide_eq_true_iff]
    simp [Accepts]

theorem accepts_linux (reply : Option (List Byte)) :
    (reply.any fun response => Accepts .linux response) =
      (reply.any (fun r => 12 ≤ r.length) && (isHttp1 (cString (reply.getD [])) &&
        decide (Linux.statusCode (reply.getD []) = some 200))) := by
  cases reply with
  | none => rfl
  | some response =>
    rw [Bool.eq_iff_iff, Option.any_some, decide_eq_true_iff]
    simp [Accepts]

theorem httpConnect_dialogue (pf : Platform) (creds : Credentials) (dest : Ip × Port)
    (s : ScriptedSocket) :
    (httpConnect pf creds dest).dialogue s =
      if s.delivers then
        (if ((s.sent (bytesOf (connectRequest pf creds dest))).reply (responseLimit pf)).any
            fun response => Accepts pf response then some () else none,
          (s.sent (bytesOf (connectRequest pf creds dest))).received (responseLimit pf))
      else (none, s.sent (bytesOf (connectRequest pf creds dest))) := by
  cases pf
  case windows =>
    rw [accepts_windows]
    simp only [httpConnect, Windows.httpConnect, sendAll_bind_dialogue, recv_bind_dialogue,
      check_bind_dialogue, dialogue, outcome_check, connectRequest, responseLimit,
      Bool.and_eq_true]
    split_ifs <;> simp_all
  case linux =>
    rw [accepts_linux]
    simp only [httpConnect, Linux.httpConnect, sendAll_bind_dialogue, recv_bind_dialogue,
      check_bind_dialogue, dialogue, outcome_check, connectRequest, responseLimit,
      Bool.and_eq_true]
    split_ifs <;> simp_all

theorem httpConnect_follows (pf : Platform) (creds : Credentials) (dest : Ip × Port)
    (s : ScriptedSocket) :
    s.Follows (fun _ reply => reply.any fun response => Accepts pf response)
      (.ask (bytesOf (connectRequest pf creds dest)) fun _ => .done)
      ((httpConnect pf creds dest).dialogue s) := by
  rw [httpConnect_dialogue]
  refine ScriptedSocket.follows_ask (responseLimit pf) ?_ ?_ ?_
  · intro hdelivers
    rw [if_neg (by simp [hdelivers])]
  · intro hdelivers hrefused
    rw [if_pos hdelivers, hrefused, if_neg (by decide)]
  · intro hdelivers hanswered
    rw [if_pos hdelivers, hanswered, if_pos rfl]
    exact ⟨[], by simp, .finished⟩

theorem proxyHandshake_follows (pf : Platform) (setup : TestSetup) (dest : Ip × Port)
    (s : ScriptedSocket) :
    s.Follows (handshakeAnswers pf setup) (handshakeClient pf setup dest)
      ((proxyHandshake pf setup dest).dialogue s) := by
  rcases setup with ⟨proxyType, _, _, creds, _, _⟩
  cases proxyType with
  | http => exact httpConnect_follows pf creds dest s
  | socks5 => exact socks5Connect_follows pf creds dest s

theorem judge_passed (t : TestTexts) (calls : TestCalls) (reply : Option (List Byte)) :
    (judge t calls reply).2 = reply.any fun response => (findHttp response).isSome := by
  rcases reply with _ | _ | ⟨b, response⟩
  · rfl
  · rfl
  · rw [judge, Option.any_some]
    cases findHttp (b :: response) <;> rfl

variable (pf : Platform) (setup : TestSetup) (calls : TestCalls) (host : CStr) (ip : Ip)

/-- What came of a part of the test, without the lines of the report. -/
def verdict (result : (List CStr × Bool) × ScriptedSocket) : Option Unit × ScriptedSocket :=
  (if result.1.2 then some () else none, result.2)

theorem isSome_verdict (result : (List CStr × Bool) × ScriptedSocket) :
    (verdict result).1.isSome = result.1.2 := by
  rcases result with ⟨⟨_, _ | _⟩, _⟩ <;> rfl

theorem askForPage_follows (s : ScriptedSocket) :
    s.Follows (testAnswers pf setup host) (.ask (sentGet pf host) fun _ => .done)
      (verdict ((askForPage pf setup calls host).eval ScriptedSocket.answer s)) := by
  have hanswers (reply) : testAnswers pf setup host (sentGet pf host) reply =
      (judge (testTexts pf) calls reply).2 := by
    rw [testAnswers, if_pos rfl, judge_passed]
  rw [askForPage, Code.eval_call]
  change s.Follows _ _ (verdict ((readPage pf setup calls s.delivers).eval _ _))
  refine ScriptedSocket.follows_ask 1023 ?_ ?_ ?_
  · intro hdelivers
    rw [hdelivers]
    rfl
  · intro hdelivers hrefused
    rw [hanswers] at hrefused
    rw [hdelivers]
    change (if (judge (testTexts pf) calls ((s.sent (sentGet pf host)).reply 1023)).2 = true
      then some () else none, (s.sent (sentGet pf host)).received 1023) = _
    rw [hrefused, if_neg (by decide)]
  · intro hdelivers hanswered
    rw [hanswers] at hanswered
    rw [hdelivers]
    refine ⟨[], (List.append_nil _).symm, ?_⟩
    change Conversation _ .done (if (judge (testTexts pf) calls
      ((s.sent (sentGet pf host)).reply 1023)).2 = true then some () else none).isSome []
    rw [hanswered, if_pos rfl]
    exact .finished

theorem testOnSocket_follows (s : ScriptedSocket) :
    s.Follows (testAnswers pf setup host) (testClient pf setup host (ip, setup.targetPort))
      (verdict ((testOnSocket pf setup calls host ip).eval ScriptedSocket.answer s)) := by
  obtain ⟨log, hlog, htalk⟩ := proxyHandshake_follows pf setup (ip, setup.targetPort) s
  have hanswers : ∀ request : List Byte, request.head? ≠ some 71 →
      handshakeAnswers pf setup request = testAnswers pf setup host request := by
    intro request hrequest
    funext reply
    rw [testAnswers, if_neg]
    rintro rfl
    exact hrequest (head_sentGet pf host)
  replace htalk := htalk.congr (handshakeClient_all pf setup _) hanswers
  rw [testOnSocket, Code.eval_bind]
  rw [dialogue, Code.outcome] at hlog htalk
  rcases hresult : (proxyHandshake pf setup (ip, setup.targetPort)).run.eval
    ScriptedSocket.answer s with ⟨_ | _, t⟩
  · rw [hresult] at hlog htalk
    exact ⟨log, hlog, htalk.andThen_of_false _⟩
  · rw [hresult] at hlog htalk
    obtain ⟨log', hlog', htalk'⟩ := askForPage_follows pf setup calls host t
    refine ⟨log ++ log', ?_, htalk.andThen htalk'⟩
    change t.log = s.log ++ log at hlog
    rw [← List.append_assoc, ← hlog]
    exact hlog'

/-- The target and its address, when the test gets as far as a connection to the proxy. -/
def reached : Option (CStr × Ip) :=
  if setup.proxyHost = [] ∨ setup.proxyPort = 0 then none
  else match setup.targetHost, calls.started pf, calls.resolved, calls.socket, calls.connect with
    | some (c :: host), .ok _, .ok ip, .ok _, .ok _ => some (c :: host, ip)
    | _, _, _, _, _ => none

theorem testConnection_eq :
    ∃ report, testConnection pf setup calls =
      (reached pf setup calls).elim (pure (report, -1)) fun target =>
        testOnSocket pf setup calls target.1 target.2 >>= fun result =>
          pure (connectedReport pf setup target.1 target.2 result) := by
  rw [testConnection, reached]
  by_cases hproxy : setup.proxyHost = [] ∨ setup.proxyPort = 0
  · simp only [if_pos hproxy]
    exact ⟨_, rfl⟩
  · simp only [if_neg hproxy]
    rcases setup.targetHost with _ | _ | ⟨c, host⟩
    · exact ⟨_, rfl⟩
    · exact ⟨_, rfl⟩
    rcases calls.started pf with _ | _
    · exact ⟨_, rfl⟩
    rcases calls.resolved with _ | ip
    · exact ⟨_, rfl⟩
    rcases calls.socket with _ | _
    · exact ⟨_, rfl⟩
    rcases calls.connect with _ | _
    · exact ⟨_, rfl⟩
    · exact ⟨.only [], rfl⟩

/-- Against any proxy, a test that reaches it is a conversation of the client: the handshake for the
address of the target, and the page request after a handshake that the proxy accepted. It returns
0 if it made all its requests, and -1 otherwise. -/
theorem testConnection_sound (replies : List (Option (List Byte))) (sends : List Bool) :
    let result := (testConnection pf setup calls).eval ScriptedSocket.answer ⟨replies, sends, []⟩
    (reached pf setup calls = none → result.1.2 = -1 ∧ result.2.log = []) ∧
    (reached pf setup calls = some (host, ip) → ∃ ok,
      result.1.2 = (if ok then 0 else -1) ∧
      Conversation (testAnswers pf setup host) (testClient pf setup host (ip, setup.targetPort)) ok
        result.2.log) := by
  obtain ⟨report, hreport⟩ := testConnection_eq pf setup calls
  intro result
  constructor
  · intro hnone
    rw [hnone, Option.elim_none] at hreport
    simp only [result, hreport]
    exact ⟨rfl, rfl⟩
  · intro hsome
    rw [hsome, Option.elim_some] at hreport
    obtain ⟨log, hlog, htalk⟩ :=
      testOnSocket_follows pf setup calls host ip ⟨replies, sends, []⟩
    simp only [result, hreport, Code.eval_bind]
    refine ⟨_, rfl, ?_⟩
    rw [isSome_verdict] at htalk
    obtain rfl := hlog
    exact htalk

end Dialogue

section Report

variable {buffer text : List Byte}

theorem zero_notMem_stringBytes (text : CStr) : 0 ∉ stringBytes text := by
  intro h
  simpa using List.mem_takeWhile_imp h

theorem readString_eq_some_iff :
    readString buffer = some text ↔ 0 ∉ text ∧ ∃ rest, buffer = text ++ 0 :: rest := by
  rw [readString]
  constructor
  · intro h
    obtain ⟨hmem, htext⟩ := Option.ite_none_right_eq_some.mp h
    obtain rfl := Option.some.inj htext
    refine ⟨fun hzero => by simpa using List.mem_takeWhile_imp hzero, ?_⟩
    have hsplit := List.takeWhile_append_dropWhile (p := fun b : Byte => decide (b ≠ 0))
      (l := buffer)
    rcases hrest : buffer.dropWhile fun b => b ≠ 0 with _ | ⟨b, rest⟩
    · rw [List.dropWhile_eq_nil_iff] at hrest
      simpa using hrest 0 hmem
    · obtain rfl : b = 0 := by
        have hhead := List.head?_dropWhile_not (fun b : Byte => decide (b ≠ 0)) buffer
        rw [hrest] at hhead
        simpa using hhead
      exact ⟨rest, by rw [hrest] at hsplit; exact hsplit.symm⟩
  · rintro ⟨hzero, rest, rfl⟩
    have hall : ∀ b ∈ text, decide (b ≠ 0) = true := by
      intro b hb
      simpa using ne_of_mem_of_not_mem hb hzero
    rw [if_pos (by simp), List.takeWhile_append_of_pos hall]
    simp

theorem storeAll_string {front padding : List Byte} (hfront : front <+: buffer)
    (hzero : 0 ∉ front ++ text)
    (hfits : front.length + (text ++ 0 :: padding).length ≤ buffer.length) :
    ∃ written, storeAll buffer front.length (text ++ 0 :: padding) = some written ∧
      written.length = buffer.length ∧ readString written = some (front ++ text) := by
  obtain ⟨behind, rfl⟩ := hfront
  refine ⟨_, storeAll_eq hfits, length_overwrite hfits, readString_eq_some_iff.mpr
    ⟨hzero, padding ++ (front ++ behind).drop (front.length + (text ++ 0 :: padding).length), ?_⟩⟩
  rw [overwrite, List.take_left]
  simp

theorem appendText_eq {old : List Byte} (hold : readString buffer = some old) (h : 0 ∉ text) :
    ∃ written, appendText buffer text = some written ∧ written.length = buffer.length ∧
      readString written = some ((old ++ text).take (buffer.length - 1)) := by
  obtain ⟨hzero, rest, hbuffer⟩ := readString_eq_some_iff.mp hold
  have hlength : buffer.length = old.length + (rest.length + 1) := by simp [hbuffer]
  have hcut : (old ++ text).take (buffer.length - 1) = old ++ text.take rest.length := by
    rw [show buffer.length - 1 = old.length + rest.length by omega, List.take_length_add_append]
  rw [appendText, hold, Option.bind_eq_bind, Option.bind_some, hcut,
    show buffer.length - old.length - 1 = rest.length by omega]
  refine storeAll_string ⟨0 :: rest, hbuffer.symm⟩ ?_ ?_
  · rw [List.mem_append]
    exact fun hmem => hmem.elim hzero fun htext => h (List.mem_of_mem_take htext)
  · simp only [List.length_append, List.length_cons, List.length_nil, List.length_take]
    omega

theorem copyText_eq (pf : Platform) (hbuffer : buffer ≠ []) (h : 0 ∉ text) :
    ∃ written, copyText pf buffer text = some written ∧ written.length = buffer.length ∧
      readString written = some (text.take (buffer.length - 1)) := by
  have hsize : 0 < buffer.length := List.length_pos_iff.mpr hbuffer
  have hzero : 0 ∉ [] ++ text.take (buffer.length - 1) := fun hmem =>
    h (List.mem_of_mem_take hmem)
  cases pf with
  | windows =>
    refine storeAll_string List.nil_prefix hzero ?_
    simp only [List.length_append, List.length_cons, List.length_nil, List.length_take]
    omega
  | linux =>
    -- the zero behind the padding is one more byte of it
    have hpadded : ∀ k : ℕ, text.take (buffer.length - 1) ++ List.replicate k (0 : Byte) ++ [0] =
        text.take (buffer.length - 1) ++ 0 :: List.replicate k 0 := by
      intro k
      rw [List.append_assoc, ← List.replicate_succ', List.replicate_succ]
    have hcopied : (text.take (buffer.length - 1)).length ≤ buffer.length - 1 :=
      List.length_take_le _ _
    have hfits : 0 + (text.take (buffer.length - 1) ++ List.replicate
        (buffer.length - 1 - (text.take (buffer.length - 1)).length) (0 : Byte)).length =
          buffer.length - 1 := by
      rw [List.length_append, List.length_replicate]
      omega
    have hroom : ([] : List Byte).length + (text.take (buffer.length - 1) ++ 0 :: List.replicate
        (buffer.length - 1 - (text.take (buffer.length - 1)).length) 0).length ≤
          buffer.length := by
      rw [← hpadded, List.length_append, List.length_singleton, List.length_nil]
      omega
    obtain ⟨written, hwritten, hresult⟩ := storeAll_string List.nil_prefix hzero hroom
    refine ⟨written, ?_, hresult⟩
    rw [← hwritten, copyText, Option.bind_eq_bind, storeAll_eq (by omega), Option.bind_some,
      store_eq (by rw [length_overwrite (by omega)]; omega), List.length_nil, ← hpadded,
      storeAll_eq (by rw [List.length_append, List.length_singleton]; omega)]
    have hjoined : ∀ more : List Byte, overwrite (overwrite buffer 0 _) (0 + _) more =
        overwrite buffer 0 _ := fun more => overwrite_overwrite (hfits.trans_le (Nat.sub_le _ _))
    rw [hfits] at hjoined
    rw [hjoined]

theorem take_cut (n : ℕ) (front behind : List Byte) :
    (front.take n ++ behind).take n = (front ++ behind).take n := by
  simp only [List.take_append, List.take_take, Nat.min_self, List.length_take]
  congr 2
  omega

theorem appendAll_eq {old : List Byte} {texts : List (List Byte)}
    (hold : readString buffer = some old) (h : ∀ text ∈ texts, 0 ∉ text) :
    ∃ written, appendAll buffer texts = some written ∧ written.length = buffer.length ∧
      readString written = some ((old ++ texts.flatten).take (buffer.length - 1)) := by
  induction texts generalizing buffer old with
  | nil =>
    obtain ⟨-, rest, hbuffer⟩ := readString_eq_some_iff.mp hold
    refine ⟨buffer, rfl, rfl, ?_⟩
    rw [hold, List.flatten_nil, List.append_nil, List.take_of_length_le (by simp [hbuffer])]
  | cons text texts ih =>
    obtain ⟨appended, happended, hlength, hstring⟩ :=
      appendText_eq hold (h text List.mem_cons_self)
    obtain ⟨written, hwritten, hwritten_length, hresult⟩ :=
      ih hstring fun text htext => h text (List.mem_cons_of_mem _ htext)
    refine ⟨written, ?_, hwritten_length.trans hlength, ?_⟩
    · rw [appendAll, happended]
      exact hwritten
    · rw [hresult, hlength, take_cut, List.flatten_cons, List.append_assoc]

theorem write_eq (pf : Platform) (report : TestReport) (hbuffer : buffer ≠ []) :
    ∃ written, report.write pf buffer = some written ∧ written.length = buffer.length ∧
      readString written = some (report.bytes.take (buffer.length - 1)) := by
  have hsize : 0 < buffer.length := List.length_pos_iff.mpr hbuffer
  cases report with
  | only text =>
    have hzero : 0 ∉ [] ++ (stringBytes text).take (buffer.length - 1) := fun hmem =>
      zero_notMem_stringBytes text (List.mem_of_mem_take hmem)
    rw [TestReport.write, snprintf, if_neg (by omega), if_neg (by omega)]
    refine storeAll_string List.nil_prefix hzero ?_
    simp only [List.length_append, List.length_cons, List.length_nil, List.length_take]
    omega
  | lines first others =>
    obtain ⟨copied, hcopied, hlength, hstring⟩ :=
      copyText_eq pf hbuffer (zero_notMem_stringBytes first)
    have hothers : ∀ text ∈ others.map stringBytes, 0 ∉ text := by
      intro text htext
      obtain ⟨other, -, rfl⟩ := List.mem_map.mp htext
      exact zero_notMem_stringBytes other
    obtain ⟨written, hwritten, hwritten_length, hresult⟩ := appendAll_eq hstring hothers
    refine ⟨written, ?_, hwritten_length.trans hlength, ?_⟩
    · rw [TestReport.write, hcopied]
      exact hwritten
    · rw [hresult, hlength, take_cut, TestReport.bytes]

/-- A report that goes line by line through `temp_buffer` is not long. -/
theorem length_bytes_le {first : CStr} {others : List CStr} :
    (TestReport.lines (cutText first) (others.map cutText)).bytes.length ≤
      511 * (others.length + 1) := by
  have hcut (text : CStr) : (stringBytes (cutText text)).length ≤ 511 := by
    refine (List.takeWhile_prefix _).length_le.trans ?_
    rw [length_bytesOf]
    exact List.length_take_le _ _
  have hothers : ((others.map cutText).map stringBytes).flatten.length ≤ 511 * others.length := by
    induction others with
    | nil => exact Nat.le_refl 0
    | cons text others ih =>
      rw [List.map_cons, List.map_cons, List.flatten_cons, List.length_append, List.length_cons]
      have htext := hcut text
      omega
  rw [TestReport.bytes, List.length_append]
  have hfirst := hcut first
  omega

variable (pf : Platform) (setup : TestSetup) (calls : TestCalls)

theorem testOnSocket_passed (host : CStr) (ip : Ip) (s : ScriptedSocket)
    (h : ((testOnSocket pf setup calls host ip).eval ScriptedSocket.answer s).1.2 = true) :
    ∃ done sent received,
      ((testOnSocket pf setup calls host ip).eval ScriptedSocket.answer s).1.1 =
        [done, sent, received, (testTexts pf).passed] := by
  rw [testOnSocket, Code.eval_bind] at h ⊢
  rcases hresult : (proxyHandshake pf setup (ip, setup.targetPort)).run.eval
    ScriptedSocket.answer s with ⟨_ | _, t⟩
  · rw [hresult] at h
    cases h
  · rw [hresult] at h
    change (Code.eval _ (readPage pf setup calls t.delivers) _).1.2 = true at h
    change ∃ done sent received, (Code.eval _ (readPage pf setup calls t.delivers) _).1.1 = _
    cases hdelivers : t.delivers with
    | false =>
      rw [hdelivers] at h
      cases h
    | true =>
      rw [hdelivers] at h
      change (judge (testTexts pf) calls _).2 = true at h
      exact ⟨_, _, _, by
        change [_, _, _, if (judge (testTexts pf) calls _).2 = true then _ else _] = _
        rw [if_pos h]⟩

theorem cutText_passed : cutText (testTexts pf).passed = (testTexts pf).passed := by
  cases pf <;> rfl

theorem testConnection_passed (s : ScriptedSocket)
    (h : ((testConnection pf setup calls).eval ScriptedSocket.answer s).1.2 = 0) :
    ∃ first others, others.length = 6 ∧
      ((testConnection pf setup calls).eval ScriptedSocket.answer s).1.1 =
        .lines (cutText first) ((others ++ [(testTexts pf).passed]).map cutText) := by
  obtain ⟨report, hreport⟩ := testConnection_eq pf setup calls
  rw [hreport] at h ⊢
  rcases hreached : reached pf setup calls with _ | ⟨host, ip⟩
  · rw [hreached] at h
    cases h
  · rw [hreached, Option.elim_some, Code.eval_bind] at h
    rw [Option.elim_some, Code.eval_bind]
    change (if _ = true then (0 : ℤ) else -1) = 0 at h
    have hpassed : ((testOnSocket pf setup calls host ip).eval ScriptedSocket.answer s).1.2 =
        true := by
      by_contra hfailed
      rw [if_neg hfailed] at h
      cases h
    obtain ⟨done, sent, received, hlines⟩ := testOnSocket_passed pf setup calls host ip s hpassed
    refine ⟨(testTexts pf).testing host setup.targetPort setup.proxyType setup.proxyHost
      setup.proxyPort, [(testTexts pf).resolved host ip,
        (testTexts pf).connecting setup.proxyHost setup.proxyPort, (testTexts pf).connected,
        done, sent, received], rfl, ?_⟩
    change TestReport.lines _ (List.map cutText (_ ++ Prod.fst _)) = _
    rw [hlines]
    rfl

/-- The test never writes outside of the buffer of its caller, and leaves a string there. A buffer
as large as the callers have it holds the whole report on a test that was passed, whose last line
says so. -/
theorem testConnection_report (hbuffer : buffer ≠ []) (s : ScriptedSocket) :
    let result := (testConnection pf setup calls).eval ScriptedSocket.answer s
    ∃ written, result.1.1.write pf buffer = some written ∧ written.length = buffer.length ∧
      readString written = some (result.1.1.bytes.take (buffer.length - 1)) ∧
      (result.1.2 = 0 → 4096 ≤ buffer.length →
        ∃ shown, readString written = some (shown ++ stringBytes (testTexts pf).passed)) := by
  intro result
  obtain ⟨written, hwritten, hlength, hstring⟩ := write_eq pf result.1.1 hbuffer
  refine ⟨written, hwritten, hlength, hstring, fun hret hsize => ?_⟩
  obtain ⟨first, others, hothers, hreport⟩ := testConnection_passed pf setup calls s hret
  have hfits : result.1.1.bytes.length ≤ 511 * 8 := by
    rw [hreport]
    refine length_bytes_le.trans ?_
    rw [List.length_append, hothers]
    exact le_rfl
  refine ⟨stringBytes (cutText first) ++ ((others.map cutText).map stringBytes).flatten, ?_⟩
  rw [hstring, List.take_of_length_le (by omega), hreport, TestReport.bytes]
  simp only [List.map_append, List.map_cons, List.map_nil, List.flatten_append,
    List.flatten_singleton, cutText_passed, List.append_assoc]

end Report

/-- A test through a SOCKS5 proxy that wants no credentials. -/
def testedSetup : TestSetup where
  proxyType := .socks5
  proxyHost := "10.0.0.1".toList
  proxyPort := 1080
  creds := .anonymous
  targetHost := some "example.org".toList
  targetPort := 80

/-- Calls that all succeed. -/
def testCalls : TestCalls where
  startup := .ok ()
  resolved := .ok (ipv4 93 184 216 34)
  socket := .ok ()
  connect := .ok ()
  sendError := 0
  recvError := 0

/-- A proxy that opens the tunnel, and the page behind it. -/
def testReplies : List (Option (List Byte)) :=
  [some [5, 0], some [5, 0, 0, 1, 0, 0, 0, 0, 0, 0], some (bytesOf "HTTP/1.1 200 OK\r\n".toList)]

/-- The page arrives, and the whole report is in the buffer. -/
theorem testConnection_report_passed :
    ∃ written shown, (((testConnection .linux testedSetup testCalls).eval ScriptedSocket.answer
        ⟨testReplies, [], []⟩).1.1).write .linux (List.replicate 4096 0) = some written ∧
      readString written = some (shown ++ stringBytes (testTexts .linux).passed) := by
  obtain ⟨written, hwritten, -, -, hpassed⟩ := testConnection_report .linux testedSetup testCalls
    (List.replicate_succ_ne_nil (n := 4095) (a := (0 : Byte))) ⟨testReplies, [], []⟩
  obtain ⟨shown, hshown⟩ := hpassed (by decide +kernel) (by rw [List.length_replicate])
  exact ⟨written, shown, hwritten, hshown⟩

/-- The conversation goes to its end. -/
theorem testConnection_sound_passed :
    Conversation (testAnswers .linux testedSetup "example.org".toList)
      (testClient .linux testedSetup "example.org".toList (ipv4 93 184 216 34, 80)) true
      ((testConnection .linux testedSetup testCalls).eval ScriptedSocket.answer
        ⟨testReplies, [], []⟩).2.log := by
  obtain ⟨ok, hret, htalk⟩ := (testConnection_sound .linux testedSetup testCalls
    "example.org".toList (ipv4 93 184 216 34) testReplies []).2 (by decide +kernel)
  have hzero : ((testConnection .linux testedSetup testCalls).eval ScriptedSocket.answer
      ⟨testReplies, [], []⟩).1.2 = 0 := by decide +kernel
  cases ok with
  | true => exact htalk
  | false =>
    rw [hzero] at hret
    cases hret

end ProxyTun
