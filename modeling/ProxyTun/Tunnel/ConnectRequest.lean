import ProxyTun.Library.Buffer
import ProxyTun.Rules.HostTokens
import ProxyTun.Tunnel.Base64

/-!
# The buffers of a CONNECT request

The engines write the credentials, their text in base 64, the address and the request into buffers
on the stack. What `snprintf` does not fit is cut, and every other access outside of a buffer is a
failure here.
-/
namespace ProxyTun
open Library Buffer

/-- `snprintf(buffer + start, sizeof(buffer) - start, ...)`. It returns the length of the text
even if it cuts it. -/
def snprintf (buffer : List Byte) (start : ℕ) (text : List Byte) : Option (List Byte) :=
  if buffer.length < start then none
  else if buffer.length = start then some buffer
  else storeAll buffer start (text.take (buffer.length - start - 1) ++ [0])

/-- The string in a buffer, as `strlen` and `%s` read it. -/
def readString (buffer : List Byte) : Option (List Byte) :=
  if 0 ∈ buffer then some (buffer.takeWhile fun b => b ≠ 0) else none

/-- The array of the digits, with its terminating zero. -/
def base64Chars : List Byte :=
  bytesOf "ABCDEFGHIJKLMNOPQRSTUVWXYZabcdefghijklmnopqrstuvwxyz0123456789+/".toList ++ [0]

def padding : Byte := 61

def loadOrZero (input : List Byte) (inputLength i : ℕ) : Option Byte :=
  if i < inputLength then load input i else some 0

/-- The loop of an encoder, with what it makes of up to three bytes and with the room that it asks
for before each block. -/
def encodeLoop (block : ℕ → ℕ → ℕ → Bool → Bool → Option (List Byte)) (room : ℕ → Bool)
    (input : List Byte) (inputLength i outputLength : ℕ) (output : List Byte) :
    Option (ℕ × List Byte) :=
  if h : i < inputLength ∧ room outputLength = true then do
    let b1 ← load input i
    let b2 ← loadOrZero input inputLength (i + 1)
    let b3 ← loadOrZero input inputLength (i + 2)
    let chars ← block b1.toNat b2.toNat b3.toNat (i + 1 < inputLength) (i + 2 < inputLength)
    let output ← storeAll output outputLength chars
    encodeLoop block room input inputLength (i + 3) (outputLength + 4) output
  else some (outputLength, output)
termination_by inputLength - i
decreasing_by omega

def hostLines (ip port : List Byte) : List Byte :=
  let host := ip ++ bytesOf ":".toList ++ port
  bytesOf "CONNECT ".toList ++ host ++ bytesOf " HTTP/1.1\r\nHost: ".toList ++ host ++
    bytesOf "\r\n".toList

namespace Windows

/-- The digits as `base64_encode` computes them. -/
def encodeBlock (b1 b2 b3 : ℕ) (two three : Bool) : Option (List Byte) := do
  let c1 ← load base64Chars (b1 >>> 2)
  let c2 ← load base64Chars ((b1 &&& 0x03) <<< 4 ||| b2 >>> 4)
  let c3 ← if two then load base64Chars ((b2 &&& 0x0F) <<< 2 ||| b3 >>> 6) else some padding
  let c4 ← if three then load base64Chars (b3 &&& 0x3F) else some padding
  some [c1, c2, c3, c4]

/-- `base64_encode`. -/
def base64EncodeInto (input output : List Byte) (outputSize : ℕ) : Option (List Byte) := do
  let text ← readString input
  let encoded ←
    encodeLoop encodeBlock (fun length => length < outputSize - 4) input text.length 0 0 output
  store encoded.2 encoded.1 0

/-- The buffers of `http_connect`. -/
structure ConnectFrame where
  credentials : Sized Byte 1024
  encoded : Sized Byte 1024
  ipStr : Sized Byte 32
  request : Sized Byte 1024

/-- `encoded` of the credentials. -/
def encodedCredentials (frame : ConnectFrame) (creds : Credentials) : Option (List Byte) := do
  let credentials ← snprintf frame.credentials 0
    (bytesOf (creds.username ++ ":".toList ++ creds.password))
  base64EncodeInto credentials frame.encoded 1024

/-- What `http_connect` hands to `send`. -/
def sentRequest (frame : ConnectFrame) (creds : Credentials) (dest : Ip × Port) :
    Option (List Byte) :=
  let port := bytesOf (decimal dest.2.toNat)
  if creds.useAuth then do
    let encoded ← encodedCredentials frame creds
    let ipStr ← snprintf frame.ipStr 0 (bytesOf (formatIpAddress dest.1))
    let ip ← readString ipStr
    let basic ← readString encoded
    let text := hostLines ip port ++ bytesOf "Proxy-Authorization: Basic ".toList ++ basic ++
      bytesOf "\r\nProxy-Connection: keep-alive\r\n\r\n".toList
    let request ← snprintf frame.request 0 text
    loadFront request text.length
  else do
    let ipStr ← snprintf frame.ipStr 0 (bytesOf (formatIpAddress dest.1))
    let ip ← readString ipStr
    let text := hostLines ip port ++ bytesOf "Proxy-Connection: keep-alive\r\n\r\n".toList
    let request ← snprintf frame.request 0 text
    loadFront request text.length

end Windows

namespace Linux

/-- The digits as `http_connect` computes them. -/
def encodeBlock (b1 b2 b3 : ℕ) (two three : Bool) : Option (List Byte) := do
  let n := b1 <<< 16
  let n := if two then n ||| b2 <<< 8 else n
  let n := if three then n ||| b3 else n
  let c1 ← load base64Chars (n >>> 18 &&& 0x3F)
  let c2 ← load base64Chars (n >>> 12 &&& 0x3F)
  let c3 ← if two then load base64Chars (n >>> 6 &&& 0x3F) else some padding
  let c4 ← if three then load base64Chars (n &&& 0x3F) else some padding
  some [c1, c2, c3, c4]

/-- The buffers of `http_connect`. -/
structure ConnectFrame where
  buf : Sized Byte 1024
  destIpStr : Sized Byte 32
  authRaw : Sized Byte 512
  authB64 : Sized Byte 700

/-- `auth_b64` of the credentials. -/
def encodedCredentials (frame : ConnectFrame) (creds : Credentials) : Option (List Byte) := do
  let raw := bytesOf (creds.username ++ ":".toList ++ creds.password)
  let authRaw ← snprintf frame.authRaw 0 raw
  let encoded ← encodeLoop encodeBlock (fun _ => true) authRaw raw.length 0 0 frame.authB64
  store encoded.2 encoded.1 0

/-- The line with the credentials, if there are any, behind what the buffer holds. -/
def appendAuthorization (frame : ConnectFrame) (creds : Credentials) (buf : List Byte)
    (len : ℕ) : Option (List Byte × ℕ) :=
  if creds.useAuth then do
    let authB64 ← encodedCredentials frame creds
    let basic ← readString authB64
    let line := bytesOf "Proxy-Authorization: Basic ".toList ++ basic ++ bytesOf "\r\n".toList
    let buf ← snprintf buf len line
    some (buf, len + line.length)
  else some (buf, len)

/-- What `http_connect` hands to `send_all`. -/
def sentRequest (frame : ConnectFrame) (creds : Credentials) (dest : Ip × Port) :
    Option (List Byte) := do
  let destIpStr ← snprintf frame.destIpStr 0 (bytesOf (formatIpAddress dest.1))
  let ip ← readString destIpStr
  let text := hostLines ip (bytesOf (decimal dest.2.toNat)) ++
    bytesOf "Proxy-Connection: Keep-Alive\r\n".toList
  let buf ← snprintf frame.buf 0 text
  let authorized ← appendAuthorization frame creds buf text.length
  let end_ := bytesOf "\r\n".toList
  let buf ← snprintf authorized.1 authorized.2 end_
  loadFront buf (authorized.2 + end_.length)

end Linux

section
variable {a b c : Byte}

theorem load_base64Chars : ∀ n : BitVec 6,
    load base64Chars n.toNat = some (BitVec.ofNat 8 (base64Char n).toNat) := by
  decide

/-- A digit of three bytes is found at its place in the table. -/
theorem load_digit (start : ℕ) {k : ℕ}
    (hk : k = (2 ^ 16 * a.toNat + 2 ^ 8 * b.toNat + c.toNat) / 2 ^ start % 2 ^ 6) :
    load base64Chars k =
      some (BitVec.ofNat 8 (base64Char ((a ++ b ++ c : BitVec 24).extractLsb' start 6)).toNat) := by
  rw [← load_base64Chars]
  congr 1
  rw [BitVec.extractLsb'_toNat, toNat_three, Nat.shiftRight_eq_div_pow, hk]

theorem or_shiftLeft {high low i : ℕ} (h : low < 2 ^ i) :
    high <<< i ||| low = high * 2 ^ i + low := by
  rw [← Nat.shiftLeft_add_eq_or_of_lt h, Nat.shiftLeft_eq]

theorem Windows.encodeBlock_eq (a b c : Byte) (two three : Bool) :
    encodeBlock a.toNat b.toNat c.toNat two three =
      some (bytesOf (base64Block a b c two three)) := by
  have ha := a.isLt
  have hb := b.isLt
  have hc := c.isLt
  have hlow : a.toNat &&& 0x03 = a.toNat % 2 ^ 2 := Nat.and_two_pow_sub_one_eq_mod _ 2
  have hlow' : b.toNat &&& 0x0F = b.toNat % 2 ^ 4 := Nat.and_two_pow_sub_one_eq_mod _ 4
  have hlow'' : c.toNat &&& 0x3F = c.toNat % 2 ^ 6 := Nat.and_two_pow_sub_one_eq_mod _ 6
  have h1 : a.toNat >>> 2 =
      (2 ^ 16 * a.toNat + 2 ^ 8 * b.toNat + c.toNat) / 2 ^ 18 % 2 ^ 6 := by
    rw [Nat.shiftRight_eq_div_pow]
    omega
  have h2 : (a.toNat &&& 0x03) <<< 4 ||| b.toNat >>> 4 =
      (2 ^ 16 * a.toNat + 2 ^ 8 * b.toNat + c.toNat) / 2 ^ 12 % 2 ^ 6 := by
    rw [or_shiftLeft (by rw [Nat.shiftRight_eq_div_pow]; omega), hlow,
      Nat.shiftRight_eq_div_pow]
    omega
  have h3 : (b.toNat &&& 0x0F) <<< 2 ||| c.toNat >>> 6 =
      (2 ^ 16 * a.toNat + 2 ^ 8 * b.toNat + c.toNat) / 2 ^ 6 % 2 ^ 6 := by
    rw [or_shiftLeft (by rw [Nat.shiftRight_eq_div_pow]; omega), hlow',
      Nat.shiftRight_eq_div_pow]
    omega
  have h4 : c.toNat &&& 0x3F =
      (2 ^ 16 * a.toNat + 2 ^ 8 * b.toNat + c.toNat) / 2 ^ 0 % 2 ^ 6 := by
    rw [hlow'']
    omega
  rw [encodeBlock, load_digit 18 h1, load_digit 12 h2, load_digit 6 h3, load_digit 0 h4]
  cases two <;> cases three <;> rfl

theorem Linux.packed_eq {two three : Bool} (htwo : two = false → b = 0)
    (hthree : three = false → c = 0) :
    (if three then
        (if two then a.toNat <<< 16 ||| b.toNat <<< 8 else a.toNat <<< 16) ||| c.toNat
      else if two then a.toNat <<< 16 ||| b.toNat <<< 8 else a.toNat <<< 16) =
      2 ^ 16 * a.toNat + 2 ^ 8 * b.toNat + c.toNat := by
  have hb := b.isLt
  have hhigh : (if two then a.toNat <<< 16 ||| b.toNat <<< 8 else a.toNat <<< 16) =
      (2 ^ 8 * a.toNat + b.toNat) <<< 8 := by
    cases two with
    | true =>
      rw [if_pos rfl, or_shiftLeft (by rw [Nat.shiftLeft_eq]; omega), Nat.shiftLeft_eq,
        Nat.shiftLeft_eq]
      omega
    | false =>
      rw [if_neg Bool.false_ne_true, htwo rfl, Nat.shiftLeft_eq, Nat.shiftLeft_eq]
      simp
      omega
  rw [hhigh]
  cases three with
  | true =>
    rw [if_pos rfl, or_shiftLeft c.isLt]
    omega
  | false =>
    rw [if_neg Bool.false_ne_true, hthree rfl, Nat.shiftLeft_eq]
    simp
    omega

theorem Linux.encodeBlock_eq {two three : Bool} (htwo : two = false → b = 0)
    (hthree : three = false → c = 0) :
    encodeBlock a.toNat b.toNat c.toNat two three =
      some (bytesOf (base64Block a b c two three)) := by
  have hdigit (start n : ℕ) : n >>> start &&& 0x3F = n / 2 ^ start % 2 ^ 6 := by
    rw [Nat.shiftRight_eq_div_pow]
    exact Nat.and_two_pow_sub_one_eq_mod _ 6
  have hlast (n : ℕ) : n &&& 0x3F = n / 2 ^ 0 % 2 ^ 6 := by
    rw [pow_zero, Nat.div_one]
    exact Nat.and_two_pow_sub_one_eq_mod _ 6
  rw [encodeBlock]
  simp only
  rw [packed_eq htwo hthree, load_digit 18 (hdigit 18 _), load_digit 12 (hdigit 12 _),
    load_digit 6 (hdigit 6 _), load_digit 0 (hlast _)]
  cases two <;> cases three <;> rfl

end

section
variable {block : ℕ → ℕ → ℕ → Bool → Bool → Option (List Byte)} {room : ℕ → Bool}
  {input bytes output : List Byte} {i outputLength : ℕ}

/-- The reads of a block find the bytes, and zero behind the last. -/
theorem loadOrZero_eq (hinput : bytes <+: input) (i k : ℕ) :
    loadOrZero input bytes.length (i + k) = some ((bytes.drop i).getD k 0) := by
  rw [loadOrZero, List.getD_eq_getElem?_getD, List.getElem?_drop]
  split_ifs with h
  · rw [load_of_front hinput h, List.getElem?_eq_getElem h, Option.getD_some]
  · rw [List.getElem?_eq_none (by omega), Option.getD_none]

/-- The digits of the three bytes at `i`, where those that are not there count as zero. -/
def blockAt (bytes : List Byte) (i : ℕ) : CStr :=
  base64Block ((bytes.drop i).getD 0 0) ((bytes.drop i).getD 1 0) ((bytes.drop i).getD 2 0)
    (1 < (bytes.drop i).length) (2 < (bytes.drop i).length)

theorem length_blockAt (bytes : List Byte) (i : ℕ) : (bytesOf (blockAt bytes i)).length = 4 := rfl

theorem base64Encode_drop (hi : i < bytes.length) :
    base64Encode (bytes.drop i) = blockAt bytes i ++ base64Encode (bytes.drop (i + 3)) := by
  have hne : bytes.drop i ≠ [] := List.ne_nil_of_length_pos (by rw [List.length_drop]; omega)
  rw [base64Encode_eq_block hne, List.drop_drop, blockAt]

def EncodesBlocks (block : ℕ → ℕ → ℕ → Bool → Bool → Option (List Byte)) : Prop :=
  ∀ (a b c : Byte) (two three : Bool), (two = false → b = 0) → (three = false → c = 0) →
    block a.toNat b.toNat c.toNat two three = some (bytesOf (base64Block a b c two three))

theorem encodeLoop_step (hblock : EncodesBlocks block) (hinput : bytes <+: input)
    (hi : i < bytes.length) (hroom : room outputLength = true)
    (hfit : outputLength + 4 ≤ output.length) :
    encodeLoop block room input bytes.length i outputLength output =
      encodeLoop block room input bytes.length (i + 3) (outputLength + 4)
        (overwrite output outputLength (bytesOf (blockAt bytes i))) := by
  have hfirst := loadOrZero_eq hinput i 0
  rw [add_zero, loadOrZero, if_pos hi] at hfirst
  have hlength : (bytes.drop i).length = bytes.length - i := List.length_drop
  have htwo : decide (i + 1 < bytes.length) = decide (1 < (bytes.drop i).length) := by
    congr 1
    rw [eq_iff_iff]
    omega
  have hthree : decide (i + 2 < bytes.length) = decide (2 < (bytes.drop i).length) := by
    congr 1
    rw [eq_iff_iff]
    omega
  have hwritten := hblock ((bytes.drop i).getD 0 0) ((bytes.drop i).getD 1 0)
    ((bytes.drop i).getD 2 0) (1 < (bytes.drop i).length) (2 < (bytes.drop i).length)
    (fun h => List.getD_eq_default _ _ (by simpa using h))
    (fun h => List.getD_eq_default _ _ (by simpa using h))
  rw [← blockAt] at hwritten
  have hstored : storeAll output outputLength (bytesOf (blockAt bytes i)) =
      some (overwrite output outputLength (bytesOf (blockAt bytes i))) :=
    storeAll_eq (by rw [length_blockAt]; exact hfit)
  rw [encodeLoop, dif_pos ⟨hi, hroom⟩, hfirst, loadOrZero_eq hinput i 1, loadOrZero_eq hinput i 2]
  simp only [Option.bind_eq_bind, Option.bind_some, htwo, hthree]
  rw [hwritten, Option.bind_some, hstored, Option.bind_some]

/-- An encoder that has room for all blocks writes the text of the bytes behind `i`. -/
theorem encodeLoop_eq (hblock : EncodesBlocks block) (hinput : bytes <+: input)
    (hroom : ∀ k < outputLength + (base64Encode (bytes.drop i)).length, room k = true)
    (hfit : outputLength + (base64Encode (bytes.drop i)).length ≤ output.length) :
    encodeLoop block room input bytes.length i outputLength output =
      some (outputLength + (base64Encode (bytes.drop i)).length,
        overwrite output outputLength (bytesOf (base64Encode (bytes.drop i)))) := by
  induction hn : bytes.length - i using Nat.strong_induction_on generalizing i outputLength output
    with
  | h n ih =>
  by_cases hi : i < bytes.length
  · have hfour : (blockAt bytes i).length = 4 := rfl
    rw [base64Encode_drop hi, List.length_append, hfour] at hroom hfit ⊢
    have hblockFits : outputLength + (bytesOf (blockAt bytes i)).length ≤ output.length := by
      rw [length_blockAt]
      omega
    have hnext := @ih (bytes.length - (i + 3)) (by omega)
      (overwrite output outputLength (bytesOf (blockAt bytes i))) (i + 3) (outputLength + 4)
      (fun k hk => hroom k (by omega)) (by rw [length_overwrite hblockFits]; omega) rfl
    have hjoined : overwrite (overwrite output outputLength (bytesOf (blockAt bytes i)))
          (outputLength + 4) (bytesOf (base64Encode (bytes.drop (i + 3)))) =
        overwrite output outputLength
          (bytesOf (blockAt bytes i ++ base64Encode (bytes.drop (i + 3)))) := by
      rw [bytesOf_append]
      exact overwrite_overwrite hblockFits
    rw [encodeLoop_step hblock hinput hi (hroom outputLength (by omega)) (by omega), hnext,
      hjoined, add_assoc]
  · have hnil : bytes.drop i = [] := List.drop_eq_nil_of_le (by omega)
    rw [encodeLoop, dif_neg (fun h => hi h.1), hnil]
    simp [base64Encode, bytesOf]

end

section
variable {buffer text more : List Byte}

theorem snprintf_eq {start : ℕ} (h : start + text.length < buffer.length) :
    snprintf buffer start text = some (overwrite buffer start (text ++ [0])) := by
  rw [snprintf, if_neg (by omega), if_neg (by omega), List.take_of_length_le (by omega),
    storeAll_eq]
  rw [List.length_append, List.length_singleton]
  omega

theorem snprintf_behind (h : text.length + more.length < buffer.length) :
    snprintf (overwrite buffer 0 (text ++ [0])) text.length more =
      some (overwrite buffer 0 (text ++ more ++ [0])) := by
  have hwritten : 0 + (text ++ [0]).length ≤ buffer.length := by
    rw [List.length_append, List.length_singleton]
    omega
  have hend : overwrite (overwrite buffer 0 (text ++ [0])) (0 + text.length) (more ++ [0]) =
      overwrite buffer 0 (text ++ (more ++ [0])) :=
    overwrite_end (by rw [List.length_append]; omega) hwritten
  rw [zero_add] at hend
  rw [snprintf_eq (by rw [length_overwrite hwritten]; exact h), hend, List.append_assoc]

theorem readString_overwrite (h : 0 ∉ text) (buffer : List Byte) :
    readString (overwrite buffer 0 (text ++ [0])) = some text := by
  have hall : ∀ b ∈ text, decide (b ≠ 0) = true := by
    intro b hb
    simpa using ne_of_mem_of_not_mem hb h
  rw [readString, if_pos (by simp [overwrite]), overwrite, List.take_zero, List.nil_append,
    List.append_assoc, List.singleton_append, List.takeWhile_append_of_pos hall,
    List.takeWhile_cons_of_neg (by decide), List.append_nil]

theorem prefix_overwrite (buffer : List Byte) : text <+: overwrite buffer 0 (text ++ [0]) := by
  rw [overwrite, List.take_zero, List.nil_append, List.append_assoc]
  exact List.prefix_append _ _

theorem loadFront_text (h : text.length < buffer.length) :
    loadFront (overwrite buffer 0 (text ++ [0])) text.length = some text := by
  rw [loadFront_overwrite_zero (by rw [List.length_append, List.length_singleton]; omega)
    (by rw [List.length_append]; omega), List.take_left]

end

/-- The credentials as one string, `username:password`. -/
def Credentials.text (creds : Credentials) : CStr :=
  creds.username ++ ":".toList ++ creds.password

section
variable {creds : Credentials}

theorem length_text_le (creds : Credentials) : (bytesOf creds.text).length ≤ 511 := by
  have husername := creds.username_length
  have hpassword := creds.password_length
  have hcolon : ":".toList.length = 1 := rfl
  rw [length_bytesOf, Credentials.text, List.length_append, List.length_append, hcolon]
  omega

theorem length_encoded_le (creds : Credentials) :
    (base64Encode (bytesOf creds.text)).length ≤ 684 := by
  have hlength := length_text_le creds
  rw [length_base64Encode]
  omega

/-- The encoder of a platform writes the text of the credentials and ends it. -/
theorem encoded_eq {block : ℕ → ℕ → ℕ → Bool → Bool → Option (List Byte)} {room : ℕ → Bool}
    (hblock : EncodesBlocks block) (hroom : ∀ k < 684, room k = true) {input output : List Byte}
    (hinput : bytesOf creds.text <+: input) (hsize : 684 < output.length) :
    (encodeLoop block room input (bytesOf creds.text).length 0 0 output).bind
        (fun encoded => store encoded.2 encoded.1 0) =
      some (overwrite output 0 (bytesOf (base64Encode (bytesOf creds.text)) ++ [0])) := by
  have hlength := length_encoded_le creds
  have hfit : 0 + (bytesOf (base64Encode (bytesOf creds.text))).length ≤ output.length := by
    rw [length_bytesOf]
    omega
  have hloop := @encodeLoop_eq block room input (bytesOf creds.text) output 0 0 hblock hinput
    (fun k hk => hroom k (by rw [List.drop_zero] at hk; omega))
    (by rw [List.drop_zero]; omega)
  rw [List.drop_zero] at hloop
  rw [hloop, Option.bind_some]
  rw [← length_bytesOf, store_eq (by rw [length_overwrite hfit, length_bytesOf]; omega),
    overwrite_overwrite hfit]

theorem Windows.encodedCredentials_eq (frame : ConnectFrame)
    (hnul : 0 ∉ bytesOf creds.text) :
    encodedCredentials frame creds =
      some (overwrite frame.encoded.val 0
        (bytesOf (base64Encode (bytesOf creds.text)) ++ [0])) := by
  have hlength := length_text_le creds
  have hsize := frame.credentials.property
  have hsize' := frame.encoded.property
  have hwritten : snprintf frame.credentials 0
      (bytesOf (creds.username ++ ":".toList ++ creds.password)) =
        some (overwrite frame.credentials.val 0 (bytesOf creds.text ++ [0])) :=
    snprintf_eq (by rw [← Credentials.text]; omega)
  rw [encodedCredentials, hwritten, Option.bind_eq_bind, Option.bind_some, base64EncodeInto,
    readString_overwrite hnul, Option.bind_eq_bind, Option.bind_some]
  exact encoded_eq (fun a b c two three _ _ => encodeBlock_eq a b c two three)
    (fun k hk => by simp; omega) (prefix_overwrite _) (by omega)

theorem Linux.encodedCredentials_eq (frame : ConnectFrame) :
    encodedCredentials frame creds =
      some (overwrite frame.authB64.val 0
        (bytesOf (base64Encode (bytesOf creds.text)) ++ [0])) := by
  have hlength := length_text_le creds
  have hsize := frame.authRaw.property
  have hsize' := frame.authB64.property
  have hwritten : snprintf frame.authRaw 0
      (bytesOf (creds.username ++ ":".toList ++ creds.password)) =
        some (overwrite frame.authRaw.val 0 (bytesOf creds.text ++ [0])) :=
    snprintf_eq (by rw [← Credentials.text]; omega)
  rw [encodedCredentials]
  simp only [hwritten, Option.bind_eq_bind, Option.bind_some]
  exact encoded_eq (fun a b c two three htwo hthree => encodeBlock_eq htwo hthree)
    (fun _ _ => rfl) (prefix_overwrite _) (by omega)

end

theorem zero_not_mem_formatIpAddress (ip : Ip) : 0 ∉ bytesOf (formatIpAddress ip) := by
  intro h
  obtain ⟨c, hc, hzero⟩ := List.mem_map.mp h
  rw [formatIpAddress_fields] at hc
  rcases mem_hostToken hc with rfl | hdigit | rfl
  · exact absurd hzero (by decide)
  · rw [isDigit, Bool.and_eq_true_iff, decide_eq_true_iff, decide_eq_true_iff] at hdigit
    have hlow : 48 ≤ c.toNat := hdigit.1
    have hhigh : c.toNat ≤ 57 := hdigit.2
    have hbyte := congrArg BitVec.toNat hzero
    rw [BitVec.toNat_ofNat] at hbyte
    have hzero' : (0 : Byte).toNat = 0 := rfl
    omega
  · exact absurd hzero (by decide)

theorem length_decimal_port_le (port : Port) : (decimal port.toNat).length ≤ 5 := by
  have hport : port.toNat < 65536 := port.isLt
  have hlength : (Nat.repr port.toNat).length ≤ 5 :=
    (Nat.length_repr_le_iff (by omega)).mpr (by omega)
  rwa [decimal, String.length_toList]

theorem hostLines_eq (dest : Ip × Port) :
    hostLines (bytesOf (formatIpAddress dest.1)) (bytesOf (decimal dest.2.toNat)) =
      bytesOf (connectLines dest) := by
  unfold hostLines connectLines
  simp only [bytesOf_append]

theorem length_connectLines_le (dest : Ip × Port) : (connectLines dest).length ≤ 71 := by
  have hip := length_formatIpAddress_le dest.1
  have hport := length_decimal_port_le dest.2
  have h1 : "CONNECT ".toList.length = 8 := by decide
  have h2 : ":".toList.length = 1 := by decide
  have h3 : " HTTP/1.1\r\nHost: ".toList.length = 17 := by decide
  have h4 : "\r\n".toList.length = 2 := by decide
  unfold connectLines
  simp only [List.length_append, h1, h2, h3, h4]
  omega

theorem useAuth_of_ne {creds : Credentials} (h : creds.username ≠ []) : creds.useAuth = true := by
  simpa [Credentials.useAuth] using h

theorem snprintf_address (buffer : Sized Byte 32) (ip : Ip) :
    (snprintf buffer 0 (bytesOf (formatIpAddress ip))).bind readString =
      some (bytesOf (formatIpAddress ip)) := by
  have hlength := length_formatIpAddress_le ip
  have hsize := buffer.property
  have hfits : 0 + (bytesOf (formatIpAddress ip)).length < buffer.val.length := by
    rw [length_bytesOf]
    omega
  rw [snprintf_eq hfits, Option.bind_some,
    readString_overwrite (zero_not_mem_formatIpAddress ip)]

section
variable {creds : Credentials}

theorem authorizationLine_eq (hname : creds.username ≠ []) :
    authorizationLine creds = "Proxy-Authorization: Basic ".toList ++
      base64Encode (bytesOf creds.text) ++ "\r\n".toList := by
  unfold authorizationLine
  rw [if_pos (useAuth_of_ne hname), Credentials.text]

theorem length_authorizationLine_le (hname : creds.username ≠ []) :
    (authorizationLine creds).length ≤ 713 := by
  have hencoded := length_encoded_le creds
  have h1 : "Proxy-Authorization: Basic ".toList.length = 27 := by decide
  have h2 : "\r\n".toList.length = 2 := by decide
  rw [authorizationLine_eq hname, List.length_append, List.length_append, h1, h2]
  omega

theorem length_connectRequest_lt (pf : Platform) (hname : creds.username ≠ [])
    (dest : Ip × Port) : (bytesOf (connectRequest pf creds dest)).length < 1024 := by
  have hlines := length_connectLines_le dest
  have hauthorization := length_authorizationLine_le hname
  rw [length_bytesOf]
  cases pf with
  | windows =>
    have h1 : "Proxy-Connection: keep-alive\r\n\r\n".toList.length = 32 := by decide
    change (Windows.connectRequest creds dest).length < 1024
    unfold Windows.connectRequest
    rw [List.length_append, List.length_append, h1]
    omega
  | linux =>
    have h1 : "Proxy-Connection: Keep-Alive\r\n".toList.length = 30 := by decide
    have h2 : "\r\n".toList.length = 2 := by decide
    change (Linux.connectRequest creds dest).length < 1024
    unfold Linux.connectRequest
    rw [List.length_append, List.length_append, List.length_append, h1, h2]
    omega

theorem Windows.sentRequest_eq (frame : ConnectFrame) (dest : Ip × Port)
    (hname : creds.username ≠ []) (hnul : 0 ∉ bytesOf creds.text) :
    sentRequest frame creds dest = some (bytesOf (connectRequest creds dest)) := by
  have hsize := frame.request.property
  have hfits := length_connectRequest_lt .windows hname dest
  change (bytesOf (connectRequest creds dest)).length < 1024 at hfits
  rw [← hsize] at hfits
  have hbasic := readString_overwrite (zero_not_mem_base64Encode (bytesOf creds.text))
    frame.encoded.val
  obtain ⟨ipStr, hwritten, hread⟩ :=
    Option.bind_eq_some_iff.mp (snprintf_address frame.ipStr dest.1)
  have hend : "\r\nProxy-Connection: keep-alive\r\n\r\n".toList =
      "\r\n".toList ++ "Proxy-Connection: keep-alive\r\n\r\n".toList := by
    decide
  have htext : bytesOf (connectLines dest) ++ bytesOf "Proxy-Authorization: Basic ".toList ++
      bytesOf (base64Encode (bytesOf creds.text)) ++
      bytesOf "\r\nProxy-Connection: keep-alive\r\n\r\n".toList =
        bytesOf (connectRequest creds dest) := by
    unfold connectRequest
    rw [authorizationLine_eq hname, hend]
    simp only [bytesOf_append, List.append_assoc]
  have hrequest : snprintf frame.request 0 (bytesOf (connectRequest creds dest)) =
      some (overwrite frame.request.val 0 (bytesOf (connectRequest creds dest) ++ [0])) :=
    snprintf_eq (by rw [zero_add]; exact hfits)
  unfold sentRequest
  simp only [useAuth_of_ne hname, if_true, encodedCredentials_eq frame hnul, hwritten, hread,
    hbasic, Option.bind_eq_bind, Option.bind_some, hostLines_eq, htext]
  rw [hrequest, Option.bind_some, loadFront_text hfits]

theorem Linux.sentRequest_eq (frame : ConnectFrame) (dest : Ip × Port)
    (hname : creds.username ≠ []) :
    sentRequest frame creds dest = some (bytesOf (connectRequest creds dest)) := by
  have hsize := frame.buf.property
  have hfits := length_connectRequest_lt .linux hname dest
  change (bytesOf (connectRequest creds dest)).length < 1024 at hfits
  rw [← hsize] at hfits
  have hbasic := readString_overwrite (zero_not_mem_base64Encode (bytesOf creds.text))
    frame.authB64.val
  obtain ⟨destIpStr, hwritten, hread⟩ :=
    Option.bind_eq_some_iff.mp (snprintf_address frame.destIpStr dest.1)
  set first := bytesOf (connectLines dest) ++ bytesOf "Proxy-Connection: Keep-Alive\r\n".toList
    with hfirst
  set line := bytesOf "Proxy-Authorization: Basic ".toList ++
    bytesOf (base64Encode (bytesOf creds.text)) ++ bytesOf "\r\n".toList with hline
  have htext : first ++ line ++ bytesOf "\r\n".toList = bytesOf (connectRequest creds dest) := by
    unfold connectRequest
    rw [authorizationLine_eq hname, hfirst, hline]
    simp only [bytesOf_append, List.append_assoc]
  rw [← htext] at hfits ⊢
  have hlength : (first ++ line).length = first.length + line.length := List.length_append
  have hlength' : (first ++ line ++ bytesOf "\r\n".toList).length =
      first.length + line.length + (bytesOf "\r\n".toList).length := by
    rw [List.length_append, hlength]
  have hstart : snprintf frame.buf 0 first = some (overwrite frame.buf.val 0 (first ++ [0])) :=
    snprintf_eq (by omega)
  have hmiddle : snprintf (overwrite frame.buf.val 0 (first ++ [0])) first.length line =
      some (overwrite frame.buf.val 0 (first ++ line ++ [0])) :=
    snprintf_behind (by omega)
  have hlast := @snprintf_behind frame.buf.val (first ++ line) (bytesOf "\r\n".toList) (by omega)
  have hauthorized : appendAuthorization frame creds (overwrite frame.buf.val 0 (first ++ [0]))
      first.length =
        some (overwrite frame.buf.val 0 (first ++ line ++ [0]), first.length + line.length) := by
    unfold appendAuthorization
    simp only [useAuth_of_ne hname, if_true, encodedCredentials_eq, hbasic, Option.bind_eq_bind,
      Option.bind_some, ← hline, hmiddle]
  unfold sentRequest
  simp only [hwritten, hread, Option.bind_eq_bind, Option.bind_some, hostLines_eq, ← hfirst,
    hstart, hauthorized]
  rw [← hlength, hlast, Option.bind_some, ← List.length_append, loadFront_text hfits]

/-- What an encoder leaves in its buffer is the same text on both platforms. -/
theorem readString_encodedCredentials (hnul : 0 ∉ bytesOf creds.text) :
    (∀ frame, (Windows.encodedCredentials frame creds).bind readString =
      some (bytesOf (base64Encode (bytesOf creds.text)))) ∧
    ∀ frame, (Linux.encodedCredentials frame creds).bind readString =
      some (bytesOf (base64Encode (bytesOf creds.text))) := by
  constructor
  · intro frame
    rw [Windows.encodedCredentials_eq frame hnul, Option.bind_some,
      readString_overwrite (zero_not_mem_base64Encode _)]
  · intro frame
    rw [Linux.encodedCredentials_eq, Option.bind_some,
      readString_overwrite (zero_not_mem_base64Encode _)]

/-- Whatever is in the buffers before, no access leaves them, nothing is cut, and both platforms
send the text in base 64 that stands for the credentials. -/
theorem sentRequest_carries_credentials (hname : creds.username ≠ [])
    (hnul : 0 ∉ bytesOf (creds.username ++ creds.password)) (dest : Ip × Port) :
    ∃ basic : CStr,
      base64Decode basic = some (bytesOf (creds.username ++ ":".toList ++ creds.password)) ∧
      (∀ frame, (Windows.encodedCredentials frame creds).bind readString =
        some (bytesOf basic)) ∧
      (∀ frame, (Linux.encodedCredentials frame creds).bind readString =
        some (bytesOf basic)) ∧
      (∀ frame, Windows.sentRequest frame creds dest = some (bytesOf (connectLines dest ++
        "Proxy-Authorization: Basic ".toList ++ basic ++
        "\r\nProxy-Connection: keep-alive\r\n\r\n".toList))) ∧
      ∀ frame, Linux.sentRequest frame creds dest = some (bytesOf (connectLines dest ++
        "Proxy-Connection: Keep-Alive\r\nProxy-Authorization: Basic ".toList ++ basic ++
        "\r\n\r\n".toList)) := by
  have hnul' : 0 ∉ bytesOf creds.text := by
    have hcolon : 0 ∉ bytesOf ":".toList := by decide
    rw [bytesOf_append, List.mem_append, not_or] at hnul
    simp only [Credentials.text, bytesOf_append, List.mem_append, not_or]
    exact ⟨⟨hnul.1, hcolon⟩, hnul.2⟩
  have hwindows : "\r\nProxy-Connection: keep-alive\r\n\r\n".toList =
      "\r\n".toList ++ "Proxy-Connection: keep-alive\r\n\r\n".toList := by
    decide
  have hlinux : "Proxy-Connection: Keep-Alive\r\nProxy-Authorization: Basic ".toList =
      "Proxy-Connection: Keep-Alive\r\n".toList ++ "Proxy-Authorization: Basic ".toList := by
    decide
  have hlinux' : "\r\n\r\n".toList = "\r\n".toList ++ "\r\n".toList := by
    decide
  obtain ⟨hencoded, hencoded'⟩ := readString_encodedCredentials hnul'
  refine ⟨base64Encode (bytesOf creds.text), base64Decode_base64Encode _, hencoded, hencoded',
    fun frame => ?_, fun frame => ?_⟩
  · rw [Windows.sentRequest_eq frame dest hname hnul', hwindows]
    unfold Windows.connectRequest
    rw [authorizationLine_eq hname]
    simp only [List.append_assoc]
  · rw [Linux.sentRequest_eq frame dest hname, hlinux, hlinux']
    unfold Linux.connectRequest
    rw [authorizationLine_eq hname]
    simp only [List.append_assoc]

/-- The credentials of the usual example. -/
def aladdin : Credentials := ⟨"Aladdin".toList, "open sesame".toList, by decide, by decide⟩

theorem sentRequest_aladdin :
    ∃ basic : CStr, base64Decode basic = some (bytesOf "Aladdin:open sesame".toList) ∧
      (∀ frame, (Windows.encodedCredentials frame aladdin).bind readString =
        some (bytesOf basic)) ∧
      ∀ frame, (Linux.encodedCredentials frame aladdin).bind readString =
        some (bytesOf basic) := by
  obtain ⟨basic, hdecode, hwindows, hlinux, -⟩ :=
    @sentRequest_carries_credentials aladdin (by decide) (by decide) (ipv4 1 1 1 1, 443)
  exact ⟨basic, hdecode, hwindows, hlinux⟩

end

end ProxyTun
