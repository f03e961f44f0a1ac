import ProxyTun.Core.FormattedScan
import ProxyTun.Core.Types
import ProxyTun.Library.Lines

/-!
# The tables of UDP sockets

When the kernel's list does not have a UDP socket, the Linux engine reads the tables under
`/proc/net`, line by line, for a socket with the port.
-/
namespace ProxyTun.Linux
open Library

/-- `"%*d: %X:%X %*X:%*X %*X %*X:%*X %*X:%*X %*X %d %*d %lu"`. -/
def udpFormat : List Directive :=
  [.dec false, .literal ':', .blank, .hex true, .literal ':', .hex true, .blank, .hex false,
    .literal ':', .hex false, .blank, .hex false, .blank, .hex false, .literal ':', .hex false,
    .blank, .hex false, .literal ':', .hex false, .blank, .hex false, .blank, .dec true, .blank,
    .dec false, .blank, .dec true]

/-- `local_port`, `uid_val` and `inode`. -/
structure UdpRow where
  localPort : BitVec 32
  uid : BitVec 32
  inode : BitVec 64
  deriving DecidableEq, Repr

def scanUdpLine (line : CStr) : Option UdpRow :=
  match scanFormat udpFormat line with
  | some [_, port, uid, inode] =>
    some ⟨toUnsigned32 port, BitVec.ofInt 32 (narrow uid), toUnsigned64 inode⟩
  | _ => none

def UdpRow.hasPort (row : UdpRow) (srcPort : Port) : Bool :=
  row.localPort = srcPort.setWidth 32 && row.inode ≠ 0

/-- The loop over the lines of a table, which ends with the first line about the port. -/
def searchUdpLines (findPid : BitVec 64 → BitVec 32 → Pid) (srcPort : Port) : List CStr → Pid
  | [] => 0
  | line :: lines =>
    match scanUdpLine line with
    | some row =>
      if row.hasPort srcPort then findPid row.inode row.uid
      else searchUdpLines findPid srcPort lines
    | none => searchUdpLines findPid srcPort lines

/-- A table is read with `char line[512]`, and its first line is skipped. -/
def searchUdpTable (findPid : BitVec 64 → BitVec 32 → Pid) (srcPort : Port) (text : CStr) : Pid :=
  searchUdpLines findPid srcPort (Lines.readLines '\n' 511 [] text).tail

/-- The loop over the tables, of which one may be missing. -/
def searchUdpTables (findPid : BitVec 64 → BitVec 32 → Pid) (srcPort : Port) :
    List (Option CStr) → Pid
  | [] => 0
  | none :: tables => searchUdpTables findPid srcPort tables
  | some text :: tables =>
    if searchUdpTable findPid srcPort text ≠ 0 then searchUdpTable findPid srcPort text
    else searchUdpTables findPid srcPort tables

abbrev HexText := { text : CStr // IsHexNumber text }

abbrev Blanks := { text : CStr // ∀ c ∈ text, c = ' ' }

/-- What the kernel prints about a socket in one line. -/
structure UdpLine where
  slotSpaces : Blanks
  slot : ℕ
  localAddr : HexText
  portText : HexText
  remoteAddr : HexText
  remotePort : HexText
  state : HexText
  txQueue : HexText
  rxQueue : HexText
  timer : HexText
  expires : HexText
  retransmits : HexText
  uidSpaces : Blanks
  uid : BitVec 32
  timeoutSpaces : Blanks
  timeout : ℕ
  inode : BitVec 64
  rest : CStr
  port : Port
  port_eq : hexDigitsValue portText.val = port.toNat
  rest_ends : ∀ c ∈ rest.head?, isDigit c = false
  rest_line : '\n' ∉ rest

namespace UdpLine

def pieces (l : UdpLine) : List Piece :=
  [.dec l.slotSpaces.val (decimal l.slot) false, .mark ':', .gap [' '], .hex l.localAddr.val true,
    .mark ':', .hex l.portText.val true, .gap [' '], .hex l.remoteAddr.val false, .mark ':',
    .hex l.remotePort.val false, .gap [' '], .hex l.state.val false, .gap [' '],
    .hex l.txQueue.val false, .mark ':', .hex l.rxQueue.val false, .gap [' '],
    .hex l.timer.val false, .mark ':', .hex l.expires.val false, .gap [' '],
    .hex l.retransmits.val false, .gap (' ' :: l.uidSpaces.val), .dec [] (decimal l.uid.toNat) true,
    .gap (' ' :: l.timeoutSpaces.val), .dec [] (decimal l.timeout) false, .gap [' '],
    .dec [] (decimal l.inode.toNat) true]

/-- `"%5d: %08X:%04X %08X:%04X %02X %08X:%08X %02X:%08lX %08X %5u %8d %lu"` and what is behind. -/
def text (l : UdpLine) : CStr := l.pieces.flatMap Piece.text ++ l.rest

/-- What a line is about. -/
def row (l : UdpLine) : UdpRow := ⟨l.port.setWidth 32, l.uid, l.inode⟩

theorem isSpace_blanks (blanks : Blanks) : ∀ c ∈ blanks.val, isSpace c = true := by
  intro c hc
  rw [blanks.property c hc]
  rfl

theorem isSpace_cons (blanks : Blanks) : ∀ c ∈ ' ' :: blanks.val, isSpace c = true :=
  List.forall_mem_cons.mpr ⟨rfl, isSpace_blanks blanks⟩

theorem isSpace_one : ∀ c ∈ [' '], isSpace c = true := by
  intro c hc
  rw [List.mem_singleton.mp hc]
  rfl

section Fits
variable {pieces : List Piece} {behind : CStr} {keep : Bool}

theorem fits_blank_hex (text : HexText) (h : Piece.Fits (.hex text.val keep :: pieces) behind) :
    Piece.Fits (.gap [' '] :: .hex text.val keep :: pieces) behind :=
  Piece.fits_gap_hex isSpace_one text.property h

theorem fits_hex_colon (text : HexText) (h : Piece.Fits pieces behind) :
    Piece.Fits (.hex text.val keep :: .mark ':' :: pieces) behind :=
  Piece.fits_hex text.property rfl rfl h

theorem fits_hex_blank (text : HexText) {blanks : CStr}
    (h : Piece.Fits (.gap (' ' :: blanks) :: pieces) behind) :
    Piece.Fits (.hex text.val keep :: .gap (' ' :: blanks) :: pieces) behind :=
  Piece.fits_hex text.property rfl rfl h

theorem fits_blank_dec (blanks : Blanks) (n : ℕ)
    (h : Piece.Fits (.dec [] (decimal n) keep :: pieces) behind) :
    Piece.Fits (.gap (' ' :: blanks.val) :: .dec [] (decimal n) keep :: pieces) behind :=
  Piece.fits_gap_dec (isSpace_cons blanks) (isNumber_decimal n) h

theorem fits_dec_blank (n : ℕ) {blanks : CStr}
    (h : Piece.Fits (.gap (' ' :: blanks) :: pieces) behind) :
    Piece.Fits (.dec [] (decimal n) keep :: .gap (' ' :: blanks) :: pieces) behind :=
  Piece.fits_dec (by simp) (isNumber_decimal n) rfl rfl h

end Fits

variable (l : UdpLine)

/-- The fields of a line are set apart as the format expects it. -/
theorem fits (behind : CStr) (h : ∀ c ∈ behind.head?, isDigit c = false) :
    Piece.Fits l.pieces behind := by
  have hinode : Piece.Fits [.gap [' '], .dec [] (decimal l.inode.toNat) true] behind :=
    fits_blank_dec ⟨[], by simp⟩ _ ⟨by simp, isNumber_decimal _, h, trivial⟩
  have htimeout := @fits_blank_dec _ _ false l.timeoutSpaces _ (fits_dec_blank l.timeout hinode)
  have huid := @fits_blank_dec _ _ true l.uidSpaces _ (fits_dec_blank l.uid.toNat htimeout)
  have hretransmits := @fits_blank_hex _ _ false _ (fits_hex_blank l.retransmits huid)
  have hexpires := @fits_hex_blank _ _ false l.expires _ hretransmits
  have htimer := @fits_blank_hex _ _ false _ (fits_hex_colon l.timer hexpires)
  have hrx := @fits_hex_blank _ _ false l.rxQueue _ htimer
  have htx := @fits_blank_hex _ _ false _ (fits_hex_colon l.txQueue hrx)
  have hstate := @fits_blank_hex _ _ false _ (fits_hex_blank l.state htx)
  have hremotePort := @fits_hex_blank _ _ false l.remotePort _ hstate
  have hremoteAddr := @fits_blank_hex _ _ false _ (fits_hex_colon l.remoteAddr hremotePort)
  have hport := @fits_hex_blank _ _ true l.portText _ hremoteAddr
  have haddr := @fits_blank_hex _ _ true _ (fits_hex_colon l.localAddr hport)
  exact Piece.fits_dec (isSpace_blanks _) (isNumber_decimal _) rfl rfl haddr

theorem rest_newline_head : ∀ c ∈ (l.rest ++ ['\n']).head?, isDigit c = false := by
  intro c hc
  cases hrest : l.rest with
  | nil =>
    rw [hrest] at hc
    obtain rfl : '\n' = c := Option.some.inj hc
    rfl
  | cons d rest =>
    rw [hrest] at hc
    obtain rfl : d = c := Option.some.inj hc
    exact l.rest_ends d (by rw [hrest]; rfl)

theorem toUnsigned32_natCast {n : ℕ} (h : n < 2 ^ 64) : toUnsigned32 n = BitVec.ofNat 32 n := by
  rw [toUnsigned32, if_neg (by omega), BitVec.ofInt_natCast]

theorem toUnsigned64_natCast {n : ℕ} (h : n < 2 ^ 64) : toUnsigned64 n = BitVec.ofNat 64 n := by
  rw [toUnsigned64, if_neg (by omega), BitVec.ofInt_natCast]

theorem scanUdpLine_text : scanUdpLine (l.text ++ ['\n']) = some l.row := by
  have hscan := scanFormat_pieces (l.fits _ l.rest_newline_head)
  have hstored : scanFormat udpFormat (l.text ++ ['\n']) =
      some [(hexDigitsValue l.localAddr.val : ℤ), (hexDigitsValue l.portText.val : ℤ),
        (digitsValue (decimal l.uid.toNat) : ℤ), (digitsValue (decimal l.inode.toNat) : ℤ)] := by
    rw [text, List.append_assoc]
    exact hscan
  have hport := l.port.isLt
  have huid := l.uid.isLt
  have hrow : (⟨toUnsigned32 (hexDigitsValue l.portText.val),
      BitVec.ofInt 32 (narrow (digitsValue (decimal l.uid.toNat))),
      toUnsigned64 (digitsValue (decimal l.inode.toNat))⟩ : UdpRow) = l.row := by
    rw [l.port_eq, digitsValue_decimal, digitsValue_decimal, toUnsigned32_natCast (by omega),
      toUnsigned64_natCast l.inode.isLt, narrow_natCast huid, BitVec.ofInt_toInt,
      BitVec.ofNat_toNat, BitVec.ofNat_toNat, BitVec.ofNat_toNat, BitVec.setWidth_eq,
      BitVec.setWidth_eq, row]
  rw [scanUdpLine, hstored, ← hrow]

theorem newline_not_mem_text : '\n' ∉ l.text := by
  have hhex : ∀ text : HexText, '\n' ∉ text.val := fun text hmem => by
    cases text.property.digits _ hmem
  have hdec : ∀ n : ℕ, '\n' ∉ decimal n := fun n => (isNumber_decimal n).not_mem rfl
  have hblanks : ∀ blanks : Blanks, '\n' ∉ blanks.val := fun blanks hmem => by
    cases blanks.property _ hmem
  have hpieces : ∀ piece ∈ l.pieces, '\n' ∉ piece.text := by
    simp [pieces, Piece.text, hhex, hdec, hblanks]
  intro hmem
  rcases List.mem_append.mp hmem with hfields | hrest
  · obtain ⟨piece, hpiece, hc⟩ := List.mem_flatMap.mp hfields
    exact hpieces piece hpiece hc
  · exact l.rest_line hrest

end UdpLine

/-- A table as the kernel prints it, with lines that fit into the buffer. -/
structure UdpTable where
  header : CStr
  header_line : '\n' ∉ header
  header_fits : header.length < 511
  lines : List UdpLine
  lines_fit : ∀ l ∈ lines, l.text.length < 511

namespace UdpTable

def text (table : UdpTable) : CStr :=
  Lines.unlines '\n' (table.header :: table.lines.map UdpLine.text)

/-- The first socket with the port. -/
def find (table : UdpTable) (srcPort : Port) : Option UdpLine :=
  table.lines.find? fun l => l.row.hasPort srcPort

end UdpTable

section Tables
variable (findPid : BitVec 64 → BitVec 32 → Pid) (srcPort : Port)

theorem searchUdpLines_text (lines : List UdpLine) :
    searchUdpLines findPid srcPort (lines.map fun l => l.text ++ ['\n']) =
      (lines.find? fun l => l.row.hasPort srcPort).elim 0 fun l => findPid l.inode l.uid := by
  induction lines with
  | nil => rfl
  | cons l lines ih =>
    rw [List.map_cons, searchUdpLines, l.scanUdpLine_text, List.find?_cons]
    simp only [ih]
    cases l.row.hasPort srcPort <;> rfl

theorem searchUdpTable_text (table : UdpTable) :
    searchUdpTable findPid srcPort table.text =
      (table.find srcPort).elim 0 fun l => findPid l.inode l.uid := by
  have hread : Lines.readLines '\n' 511 [] table.text =
      (table.header :: table.lines.map UdpLine.text).map fun line => line ++ ['\n'] := by
    apply Lines.readLines_unlines
    rw [List.forall_mem_cons]
    refine ⟨⟨table.header_line, table.header_fits⟩, ?_⟩
    rw [List.forall_mem_map]
    exact fun l hl => ⟨l.newline_not_mem_text, table.lines_fit l hl⟩
  rw [searchUdpTable, hread, List.map_cons, List.tail_cons, List.map_map]
  exact searchUdpLines_text findPid srcPort table.lines

theorem exists_of_searchUdpTables {tables : List (Option CStr)} {pid : Pid}
    (h : searchUdpTables findPid srcPort tables = pid) (hpid : pid ≠ 0) :
    ∃ text, some text ∈ tables ∧ searchUdpTable findPid srcPort text = pid := by
  induction tables with
  | nil => exact absurd h.symm hpid
  | cons table tables ih =>
    cases table with
    | none =>
      obtain ⟨text, hmem, htext⟩ := ih h
      exact ⟨text, List.mem_cons_of_mem _ hmem, htext⟩
    | some text =>
      rw [searchUdpTables] at h
      split_ifs at h with hfirst
      · exact ⟨text, List.mem_cons_self, h⟩
      · obtain ⟨text', hmem, htext⟩ := ih h
        exact ⟨text', List.mem_cons_of_mem _ hmem, htext⟩

end Tables

end ProxyTun.Linux
