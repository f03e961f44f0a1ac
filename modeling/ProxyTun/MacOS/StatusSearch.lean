import ProxyTun.MacOS.TunnelTransparency

/-!
# The response to CONNECT on macOS

The extension relays when the characters 200 occur anywhere in the response. Every refusal with a
length, a date or an identifier that has these digits counts as success.
-/
namespace ProxyTun.MacOS
open Library Library.Code Exchange

/-- A response: its version, its status code, and the reason, the headers and the body. -/
structure HttpResponse where
  major : Char
  minor : Char
  code : CStr
  behind : CStr
  isDigit_major : isDigit major = true
  isDigit_minor : isDigit minor = true
  isNumber_code : IsNumber code
  length_code : code.length = 3
  ends : ∀ c ∈ behind.head?, isSpace c = true

namespace HttpResponse

def front (r : HttpResponse) : CStr :=
  "HTTP".toList ++ '/' :: ([r.major] ++ '.' :: ([r.minor] ++ ' ' :: r.code))

def text (r : HttpResponse) : CStr := r.front ++ r.behind

end HttpResponse

theorem infix_separator_iff {α : Type*} {part before behind : List α} {separator : α}
    (h : separator ∉ part) :
    part <:+: before ++ separator :: behind ↔ part <:+: before ∨ part <:+: behind := by
  rw [List.infix_append_iff_ne_nil]
  constructor
  · rintro (hbefore | hbehind | ⟨l, m, -, hne, rfl, -, hprefix⟩)
    · exact Or.inl hbefore
    · rcases List.infix_cons_iff.mp hbehind with hprefix | hbehind
      · rcases List.prefix_cons_iff.mp hprefix with rfl | ⟨rest, rfl, -⟩
        · exact Or.inr List.nil_infix
        · exact absurd List.mem_cons_self h
      · exact Or.inr hbehind
    · rcases List.prefix_cons_iff.mp hprefix with rfl | ⟨rest, rfl, -⟩
      · exact absurd rfl hne
      · exact absurd (List.mem_append_right _ List.mem_cons_self) h
  · rintro (hbefore | hbehind)
    · exact Or.inl hbefore
    · exact Or.inr (Or.inl (List.infix_cons hbehind))

namespace HttpResponse
variable (r : HttpResponse)

theorem infix_front_iff : "200".toList <:+: r.front ↔ r.code = "200".toList := by
  have hletters : ¬ "200".toList <:+: "HTTP".toList := by decide
  have hshort (c : Char) : ¬ "200".toList <:+: [c] := by
    intro h
    have hlength := h.length_le
    simp at hlength
  rw [front, infix_separator_iff (by decide), infix_separator_iff (by decide),
    infix_separator_iff (by decide)]
  constructor
  · rintro (h | h | h | h)
    · exact absurd h hletters
    · exact absurd h (hshort _)
    · exact absurd h (hshort _)
    · exact (h.eq_of_length (by rw [r.length_code]; rfl)).symm
  · intro h
    rw [h]
    exact Or.inr (Or.inr (Or.inr (List.infix_refl _)))

theorem isPlain_front : IsPlain r.front := by
  have hdigits : ∀ c ∈ r.front, isDigit c = true ∨ c ∈ "HTTP/. ".toList := by
    intro c hc
    simp only [front, String.reduceToList, List.mem_append, List.mem_cons, List.not_mem_nil,
      or_false] at hc ⊢
    rcases hc with (rfl | rfl | rfl | rfl) | rfl | rfl | rfl | rfl | rfl | hc
    any_goals simp
    · exact Or.inl r.isDigit_major
    · exact Or.inl r.isDigit_minor
    · exact Or.inl (r.isNumber_code.digits c hc)
  have hletters : ∀ c ∈ "HTTP/. ".toList, c.toNat < 128 ∧ c ≠ '\r' := by simp
  constructor
  · intro c hc
    rcases hdigits c hc with hdigit | hletter
    · have hbounds := toNat_of_isDigit hdigit
      omega
    · exact (hletters c hletter).1
  · intro hcrlf
    rcases hdigits '\r' (hcrlf.subset List.mem_cons_self) with hdigit | hletter
    · cases hdigit
    · exact (hletters '\r' hletter).2 rfl

theorem ascii_of_isSpace {c : Char} (h : isSpace c = true) : c.toNat < 128 := by
  simp only [isSpace, Bool.or_eq_true, decide_eq_true_eq, or_assoc] at h
  rcases h with rfl | rfl | rfl | rfl | rfl | rfl <;> decide

theorem characters_text (sys : Characters) :
    sys.characters r.text = (r.front.map fun c => [c]) ++ sys.characters r.behind := by
  have hfront := sys.characters_of_isPlain r.isPlain_front
  rw [text]
  cases hbehind : r.behind with
  | nil => rw [List.append_nil, hfront, sys.characters_nil, List.append_nil]
  | cons c behind =>
    have hc : isSpace c = true := r.ends c (by rw [hbehind]; rfl)
    obtain ⟨digits, d, hcode⟩ := (List.eq_nil_or_concat' r.code).resolve_left
      r.isNumber_code.nonempty
    have hd : isDigit d = true := r.isNumber_code.digits d (by rw [hcode]; simp)
    obtain ⟨line, hline⟩ : ∃ line, r.front = line ++ [d] := by
      refine ⟨"HTTP".toList ++ '/' :: ([r.major] ++ '.' :: ([r.minor] ++ ' ' :: digits)), ?_⟩
      rw [front, hcode]
      simp only [List.append_assoc, List.cons_append]
    have hbounds := toNat_of_isDigit hd
    rw [← hfront, hline]
    apply sys.characters_append line behind d c (by omega) (ascii_of_isSpace hc)
    rintro ⟨rfl, -⟩
    cases hd

theorem characters_code (sys : Characters) :
    sys.characters "200".toList = "200".toList.map fun c => [c] :=
  sys.characters_of_isPlain (isPlain_of_isNumber isNumber_200)

theorem contains_text_iff (sys : Characters) :
    sys.contains r.text "200".toList = true ↔
      r.code = "200".toList ∨ sys.contains r.behind "200".toList = true := by
  have hfront : "200".toList.map (fun c => [c]) <:+: r.front.map (fun c => [c]) ↔
      r.code = "200".toList := by
    rw [← r.infix_front_iff, List.infix_map_iff]
    constructor
    · rintro ⟨part, hpart, hmap⟩
      rwa [List.map_injective_iff.mpr List.singleton_injective hmap]
    · exact fun h => ⟨_, h, rfl⟩
  have hne : ¬ "200".toList.map (fun c => [c]) <:+: [] := by decide
  simp only [Characters.contains, decide_eq_true_eq, characters_code, characters_text]
  cases hbehind : r.behind with
  | nil => rw [sys.characters_nil, List.append_nil, hfront, or_iff_left hne]
  | cons c behind =>
    have hc : isSpace c = true := r.ends c (by rw [hbehind]; rfl)
    obtain ⟨first, rest, hparts⟩ := sys.exists_characters_cons c behind
    have hseparator : c :: first ∉ "200".toList.map fun c => [c] := by
      intro hmem
      obtain ⟨d, hd, heq⟩ := List.mem_map.mp hmem
      obtain rfl := (List.cons.inj heq).1
      rw [isSpace_of_isDigit (isNumber_200.digits d hd)] at hc
      cases hc
    have hrest := @infix_separator_iff _ _ [] rest _ hseparator
    rw [List.nil_append, or_iff_right hne] at hrest
    rw [hparts, infix_separator_iff hseparator, hfront, hrest]

end HttpResponse

variable (sys : Foundation)

/-- For every response with a status line that arrives in one read, the extension relays exactly
on the code 200 when that is the code or the digits do not occur behind it. -/
theorem handleHTTPProxy_relays_iff (login : Login) (destination : CStr) (port : Port)
    (s : ProxySocket) (r : HttpResponse)
    (hread : decodeUtf8 (s.incoming.recv 8192).1 = some r.text) :
    ((∃ t, (handleHTTPProxy sys login destination port).Yields s () t) ↔
        r.code = "200".toList) ↔
      (r.code = "200".toList ∨ sys.contains r.behind "200".toList = false) := by
  have hrelays : (∃ t, (handleHTTPProxy sys login destination port).Yields s () t) ↔
      r.code = "200".toList ∨ sys.contains r.behind "200".toList = true := by
    rw [← r.contains_text_iff sys.toCharacters]
    constructor
    · rintro ⟨t, ht⟩
      obtain ⟨⟨response, hresponse, hcontains⟩, -⟩ := (handleHTTPProxy_yields ..).mp ht
      rw [hread, Option.some.injEq] at hresponse
      rwa [hresponse]
    · intro hcontains
      exact ⟨_, (handleHTTPProxy_yields ..).mpr ⟨⟨_, hread, hcontains⟩, rfl⟩⟩
  rw [hrelays]
  cases sys.contains r.behind "200".toList with
  | true => simp
  | false => simp

def refusal (behind : CStr) (h : ∀ c ∈ behind.head?, isSpace c = true) : HttpResponse where
  major := '1'
  minor := '1'
  code := "407".toList
  behind := behind
  isDigit_major := rfl
  isDigit_minor := rfl
  isNumber_code := ⟨by decide, List.all_eq_true.mp (by decide)⟩
  length_code := rfl
  ends := h

/-- A text that arrives in one piece. -/
def onePiece (text : CStr) : ProxySocket := ⟨.ofParts [utf8 text], []⟩

theorem decode_onePiece {text : CStr} (hne : utf8 text ≠ []) (hlength : (utf8 text).length ≤ 8192) :
    decodeUtf8 ((onePiece text).incoming.recv 8192).1 = some text := by
  have hread : ((onePiece text).incoming.recv 8192).1 = utf8 text := by
    simp [onePiece, Segmented.recv, Segmented.first, Segmented.ofParts, hne,
      List.take_of_length_le hlength]
  rw [hread, decodeUtf8_utf8]

def shortRefusal : HttpResponse :=
  refusal " Proxy Authentication Required\r\n\r\n".toList fun c hc => by cases hc; rfl

/-- A refusal without the digits is no success. -/
theorem handleHTTPProxy_refused :
    (∃ t, (handleHTTPProxy hostNames noLogin "example.org".toList 443).Yields
        (onePiece shortRefusal.text) () t) ↔ shortRefusal.code = "200".toList :=
  (handleHTTPProxy_relays_iff hostNames noLogin "example.org".toList 443
    (onePiece shortRefusal.text) shortRefusal (decode_onePiece (by decide) (by decide))).mpr
    (Or.inr (by decide))

def longRefusal : HttpResponse :=
  refusal " Proxy Authentication Required\r\nContent-Length: 1200\r\n\r\n".toList
    fun c hc => by cases hc; rfl

/-- The length of the body of a refusal has the digits. -/
theorem handleHTTPProxy_relays_refusal :
    (∃ t, (handleHTTPProxy hostNames noLogin "example.org".toList 443).Yields
        (onePiece longRefusal.text) () t) ∧ longRefusal.code ≠ "200".toList := by
  have hcontains : hostNames.contains longRefusal.text "200".toList = true :=
    longRefusal.contains_text_iff hostNames.toCharacters |>.mpr (Or.inr (by decide))
  exact ⟨⟨_, (handleHTTPProxy_yields ..).mpr
    ⟨⟨_, decode_onePiece (by decide) (by decide), hcontains⟩, rfl⟩⟩, by decide⟩

end ProxyTun.MacOS
