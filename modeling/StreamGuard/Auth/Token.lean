/-
V1 bearer tokens (`sg-auth/src/lib.rs`).

A token is a compact JWT that the gateway mints and checks itself: header, claims and a tag over
both, each in base64url, with dots between. The claims are JSON that is not parsed: the verifier
searches the text for a key and cuts out what follows it. Their `sid` is the four bytes of the
session that go on the wire, printed as a decimal number.

HMAC is a parameter, a function of key and message, and the time is an argument of both calls.
-/
import StreamGuard.Auth.Base64Url
import StreamGuard.Core.V1

set_option autoImplicit false

namespace StreamGuard.Auth

open StreamGuard StreamGuard.Lib

/-- An error of authentication, with its text. -/
structure Error where
  message : String

abbrev Hmac := Bytes → Bytes → Bytes

def HEADER : Text := "\x7b\"alg\":\"HS256\",\"typ\":\"JWT\"\x7d".toList

/-- `ok_or_else`. -/
def ok_or {α : Type} (message : String) : Outcome Unit α → Outcome Error α
  | .ok a => .ok a
  | .err () => .err ⟨message⟩
  | .panic => .panic

/-! ## Issuing -/

/-- The four bytes on the wire, as a decimal number. -/
def wire_prefix_hex (id : V1.SessionId) : Text := Text.decimal (U32.from_be_bytes id.wire).val

/-- The text of the claims. -/
def claims_text (sid : Text) (iat exp : ℕ) : Text :=
  "\x7b\"sid\":\"".toList ++ sid ++ "\",\"iat\":".toList ++ Text.decimal iat ++
    ",\"exp\":".toList ++ Text.decimal exp ++ "\x7d".toList

def issue (hmac : Hmac) (now : U64) (secret : Bytes) (session_id : V1.SessionId) (ttl_secs : U64) :
    Outcome Error Text := do
  let sid := wire_prefix_hex session_id
  let payload := claims_text sid now.val (saturatingAdd now.val ttl_secs.val)
  let header ← base64url_nopad (Text.as_bytes HEADER)
  let body ← base64url_nopad (Text.as_bytes payload)
  let signing_input := header ++ '.' :: body
  let tag := hmac secret (Text.as_bytes signing_input)
  let sig ← base64url_nopad tag
  return signing_input ++ '.' :: sig

/-! ## Verifying -/

structure Claims where
  sid : Text
  exp : U64

/-- The string value of a key; none is the error. -/
def extract_str (text key : Text) : Outcome Unit Text := do
  let needle := '"' :: key ++ "\":\"".toList
  let start := (← Outcome.ofOption () (Text.find needle text)) + Text.size needle
  let value ← Text.slice_from text start
  let stop := (← Outcome.ofOption () (Text.find_char (· = '"') value)) + start
  Text.slice text start stop

/-- The number of a key. -/
def extract_u64 (text key : Text) : Outcome Unit U64 := do
  let needle := '"' :: key ++ "\":".toList
  let start := (← Outcome.ofOption () (Text.find needle text)) + Text.size needle
  let value ← Text.slice_from text start
  let stop := ((Text.find_char (fun c => !c.isDigit) value).map (start + ·)).getD (Text.size text)
  let digits ← Text.slice text start stop
  Outcome.ofOption () (Text.parse (2 ^ 64) digits)

def parse_claims (raw : Bytes) : Outcome Error Claims := do
  let text := Text.from_utf8_lossy raw
  let sid ← ok_or "claim sid missing" (extract_str text "sid".toList)
  let exp ← ok_or "claim exp missing" (extract_u64 text "exp".toList)
  return ⟨sid, exp⟩

/-- The bytes of the session whose four bytes the number is. -/
def wire_prefix_from_hex (sid : Text) : Except Error Bytes :=
  match Text.parse (2 ^ 32) sid with
  | some value => .ok (U32.to_be_bytes value ++ List.replicate 12 0)
  | none => .error ⟨"claim sid not a u32: " ++ String.ofList sid⟩

/-- The three segments of a token. -/
def segments (token : Text) : Except Error (Text × Text × Text) :=
  match token.splitOn '.' with
  | [] => .error ⟨"missing token header"⟩
  | [_] => .error ⟨"missing token payload"⟩
  | [_, _] => .error ⟨"missing token signature"⟩
  | [header, body, sig] => .ok (header, body, sig)
  | _ => .error ⟨"token has too many segments"⟩

def verify (hmac : Hmac) (now : U64) (token : Text) (secret : Bytes) :
    Outcome Error V1.SessionId := do
  let (header, body, sig) ← Outcome.ofExcept (segments token)
  let decoded_sig ← ok_or "signature is not base64url" (base64url_nopad_decode sig)
  if hmac secret (Text.as_bytes (header ++ '.' :: body)) ≠ decoded_sig then
    .err ⟨"bad signature"⟩
  else do
    let header_bytes ← ok_or "header is not base64url" (base64url_nopad_decode header)
    let header_text := Text.from_utf8_lossy header_bytes
    if Text.contains "HS256".toList header_text = false then
      .err ⟨"unexpected header " ++ String.ofList header_text⟩
    else do
      let body_text ← ok_or "payload is not base64url" (base64url_nopad_decode body)
      let payload ← parse_claims body_text
      if payload.exp ≤ now then .err ⟨"token expired"⟩
      else do
        let bytes ← Outcome.ofExcept (wire_prefix_from_hex payload.sid)
        return ⟨array_from_bytes 16 bytes⟩

/-! ## What is cut out of the claims -/

section Extract

variable {ε : Type} {text key before value after front back : Text} {x : Char}

/-- What stands between a text that comes first and another offset. -/
theorem slice_after (ε : Type) (before needle value after : Text) :
    (Text.slice (before ++ needle ++ (value ++ after)) (Text.size before + Text.size needle)
      (Text.size value + (Text.size before + Text.size needle)) : Outcome ε Text) = .ok value := by
  rw [Nat.add_comm (Text.size value), ← Text.size_append, ← List.append_assoc]
  exact Text.slice_append (before ++ needle) value after

theorem slice_from_after (before needle after : Text) :
    (Text.slice_from (before ++ needle ++ after) (Text.size before + Text.size needle) :
      Outcome ε Text) = .ok after := by
  rw [← Text.size_append]
  exact Text.slice_from_append (before ++ needle) after

theorem extract_str_eq (hbefore : '"' ∉ before) (hvalue : '"' ∉ value) :
    extract_str (before ++ ('"' :: key ++ "\":\"".toList) ++ (value ++ '"' :: after)) key =
      .ok value := by
  have hfind : Text.find ('"' :: key ++ "\":\"".toList)
      (before ++ ('"' :: key ++ "\":\"".toList) ++ (value ++ '"' :: after)) =
        some (Text.size before) :=
    Text.find_first [] (key ++ "\":\"".toList) hbefore List.not_mem_nil
  have hend : Text.find_char (· = '"') (value ++ '"' :: after) = some (Text.size value) := by
    refine Text.find_char_first ?_ (by simp)
    intro d hd
    rw [decide_eq_false_iff_not]
    rintro rfl
    exact hvalue hd
  rw [extract_str]
  dsimp only
  rw [hfind, Outcome.ofOption, Outcome.ok_bind, slice_from_after, Outcome.ok_bind, hend,
    Outcome.ofOption, Outcome.ok_bind]
  exact slice_after Unit before _ value _

theorem extract_u64_eq {digits : Text} {c : Char} (hbefore : x ∉ before) (hfront : x ∉ '"' :: front)
    (hdigits : ∀ d ∈ digits, d.isDigit = true) (hc : c.isDigit = false) :
    extract_u64 (before ++ ('"' :: (front ++ x :: back) ++ "\":".toList) ++ (digits ++ c :: after))
      (front ++ x :: back) = Outcome.ofOption () (Text.parse (2 ^ 64) digits) := by
  have hneedle : '"' :: (front ++ x :: back) ++ "\":".toList =
      '"' :: front ++ x :: (back ++ "\":".toList) := by simp
  have hfind : Text.find ('"' :: (front ++ x :: back) ++ "\":".toList)
      (before ++ ('"' :: (front ++ x :: back) ++ "\":".toList) ++ (digits ++ c :: after)) =
        some (Text.size before) := by
    rw [hneedle]
    exact Text.find_first _ _ hbefore hfront
  have hend : Text.find_char (fun c => !c.isDigit) (digits ++ c :: after) =
      some (Text.size digits) := by
    refine Text.find_char_first ?_ (by simp [hc])
    intro d hd
    simp [hdigits d hd]
  rw [extract_u64]
  dsimp only
  rw [hfind, Outcome.ofOption, Outcome.ok_bind, slice_from_after, Outcome.ok_bind, hend,
    Option.map_some, Option.getD_some, Nat.add_comm _ (Text.size digits), slice_after,
    Outcome.ok_bind]

end Extract

/-! ## What is issued is accepted -/

section Issued

variable {sid : Text} {iat exp : ℕ}

theorem isDigit_lt {c : Char} (h : c.isDigit = true) : c.toNat < 58 := by
  simp only [Char.isDigit, Bool.and_eq_true, decide_eq_true_eq] at h
  have hle := UInt32.le_iff_toNat_le.mp h.2
  exact Nat.lt_succ_of_le hle

theorem notMem_of_digits {c : Char} (hsid : ∀ d ∈ sid, d.isDigit = true) (hc : c.isDigit = false) :
    c ∉ sid := by
  intro hmem
  rw [hsid c hmem] at hc
  contradiction

theorem claims_text_ascii (hsid : ∀ d ∈ sid, d.isDigit = true) :
    ∀ c ∈ claims_text sid iat exp, c.toNat < 128 := by
  have hdigits : ∀ text : Text, (∀ d ∈ text, d.isDigit = true) → ∀ c ∈ text, c.toNat < 128 := by
    intro text h c hc
    have hlt := isDigit_lt (h c hc)
    omega
  have hdecimal : ∀ n, ∀ c ∈ Text.decimal n, c.toNat < 128 :=
    fun n => hdigits _ fun _ => Text.isDigit_of_mem_decimal
  have hopen : ∀ c ∈ "\x7b\"sid\":\"".toList, c.toNat < 128 := by simp
  have hiat : ∀ c ∈ "\",\"iat\":".toList, c.toNat < 128 := by simp
  have hexp : ∀ c ∈ ",\"exp\":".toList, c.toNat < 128 := by simp
  have hclose : ∀ c ∈ "\x7d".toList, c.toNat < 128 := by simp
  unfold claims_text
  simp only [List.forall_mem_append]
  exact ⟨⟨⟨⟨⟨⟨hopen, hdigits sid hsid⟩, hiat⟩, hdecimal iat⟩, hexp⟩, hdecimal exp⟩, hclose⟩

/-- **The claims that are read** are those that were written. -/
theorem parse_claims_text (iat : ℕ) (hsid : ∀ d ∈ sid, d.isDigit = true) (hexp : exp < 2 ^ 64) :
    parse_claims (Text.as_bytes (claims_text sid iat exp)) = .ok ⟨sid, ⟨exp, hexp⟩⟩ := by
  have hstr : extract_str (claims_text sid iat exp) "sid".toList = .ok sid := by
    have hshape : claims_text sid iat exp =
        "\x7b".toList ++ ('"' :: "sid".toList ++ "\":\"".toList) ++
          (sid ++ '"' :: (",\"iat\":".toList ++ Text.decimal iat ++ ",\"exp\":".toList ++
            Text.decimal exp ++ "\x7d".toList)) := by
      unfold claims_text
      simp
    rw [hshape]
    exact extract_str_eq (by simp) (notMem_of_digits hsid (by simp))
  have hnum : extract_u64 (claims_text sid iat exp) "exp".toList = .ok ⟨exp, hexp⟩ := by
    have hshape : claims_text sid iat exp =
        ("\x7b\"sid\":\"".toList ++ sid ++ "\",\"iat\":".toList ++ Text.decimal iat ++
          ",".toList) ++
          ('"' :: ("e".toList ++ 'x' :: "p".toList) ++ "\":".toList) ++
            (Text.decimal exp ++ '\x7d' :: []) := by
      unfold claims_text
      simp
    have hkey : "exp".toList = "e".toList ++ 'x' :: "p".toList := by simp
    have hx : ('x' : Char).isDigit = false := by simp
    have hbefore : 'x' ∉ "\x7b\"sid\":\"".toList ++ sid ++ "\",\"iat\":".toList ++
        Text.decimal iat ++ ",".toList := by
      have hiat := notMem_of_digits (fun _ => Text.isDigit_of_mem_decimal (v := iat)) hx
      simp [notMem_of_digits hsid hx, hiat]
    rw [hshape, hkey, extract_u64_eq hbefore (by simp)
      (fun _ => Text.isDigit_of_mem_decimal) (by simp), Text.parse_decimal hexp]
    rfl
  rw [parse_claims, Text.from_utf8_lossy_ascii (claims_text_ascii hsid)]
  simp only [hstr, hnum, ok_or, Outcome.ok_bind]
  rfl

/-- Three segments without dots are taken apart again. -/
theorem segments_join {header body sig : Text} (hheader : '.' ∉ header) (hbody : '.' ∉ body)
    (hsig : '.' ∉ sig) :
    segments (header ++ '.' :: body ++ '.' :: sig) = .ok (header, body, sig) := by
  have hjoin : header ++ '.' :: body ++ '.' :: sig = ['.'].intercalate [header, body, sig] := by
    simp [List.intercalate]
  have hsplit : (header ++ '.' :: body ++ '.' :: sig).splitOn '.' = [header, body, sig] := by
    rw [hjoin]
    refine List.splitOn_intercalate '.' ?_ (by simp)
    simp [hheader, hbody, hsig]
  rw [segments, hsplit]

theorem header_claims_hs256 : Text.contains "HS256".toList HEADER = true := by decide

/-- The session of the number that was printed. -/
theorem wire_prefix_round_trip (id : V1.SessionId) :
    wire_prefix_from_hex (wire_prefix_hex id) = .ok (id.wire ++ List.replicate 12 0) := by
  have hbytes : U32.to_be_bytes (U32.from_be_bytes id.wire) = id.wire :=
    ((U32.from_be_bytes_eq_iff id.length_wire).mp rfl).symm
  rw [wire_prefix_from_hex, wire_prefix_hex, Text.parse_decimal (U32.from_be_bytes id.wire).isLt]
  exact congrArg (fun four => Except.ok (four ++ List.replicate 12 0)) hbytes

/-- **A token that was issued** is accepted until it expires. -/
theorem verify_issued (hmac : Hmac) (secret : Bytes) (id : V1.SessionId) (now ttl_secs : U64) :
    ∃ token, issue hmac now secret id ttl_secs = .ok token ∧ ∀ later : U64,
      verify hmac later token secret =
        if later.val < saturatingAdd now.val ttl_secs.val then .ok (V1.SessionId.of_wire id.wire)
        else .err ⟨"token expired"⟩ := by
  have hexp : saturatingAdd now.val ttl_secs.val < 2 ^ 64 :=
    lt_of_le_of_lt (saturatingAdd_le_max _ _) (by decide)
  have hsid : ∀ d ∈ wire_prefix_hex id, d.isDigit = true := fun _ => Text.isDigit_of_mem_decimal
  have hclaims := parse_claims_text now.val hsid hexp
  obtain ⟨header, hheader, hheader', hheader_dot⟩ :=
    base64url_round_trip Error (Text.as_bytes HEADER)
  obtain ⟨body, hbody, hbody', hbody_dot⟩ := base64url_round_trip Error (Text.as_bytes
    (claims_text (wire_prefix_hex id) now.val (saturatingAdd now.val ttl_secs.val)))
  obtain ⟨sig, hsig, hsig', hsig_dot⟩ :=
    base64url_round_trip Error (hmac secret (Text.as_bytes (header ++ '.' :: body)))
  have hheader_text : Text.from_utf8_lossy (Text.as_bytes HEADER) = HEADER :=
    Text.from_utf8_lossy_ascii (by unfold HEADER; simp)
  refine ⟨header ++ '.' :: body ++ '.' :: sig, ?_, ?_⟩
  · rw [issue]
    simp only [hheader, hbody, hsig, Outcome.ok_bind]
    rfl
  · intro later
    rw [verify, segments_join hheader_dot hbody_dot hsig_dot]
    simp only [base64url_nopad_decode, hheader', hbody', hsig', hclaims, ok_or, Outcome.ofExcept,
      Outcome.ok_bind]
    rw [if_neg (by simp), hheader_text, header_claims_hs256, if_neg (by simp)]
    have hle : (⟨saturatingAdd now.val ttl_secs.val, hexp⟩ : U64) ≤ later ↔
        ¬ later.val < saturatingAdd now.val ttl_secs.val := not_lt.symm
    by_cases hlater : later.val < saturatingAdd now.val ttl_secs.val
    · rw [if_pos hlater, if_neg (fun h => hle.mp h hlater), wire_prefix_round_trip]
      rfl
    · rw [if_neg hlater, if_pos (hle.mpr hlater)]

end Issued

/-! ## What is accepted -/

section Accepted

variable {text key token : Text} {hmac : Hmac} {now : U64} {secret : Bytes} {id : V1.SessionId}

theorem ok_or_ne_panic {α : Type} {message : String} {x : Outcome Unit α} (h : x ≠ .panic) :
    ok_or message x ≠ .panic := by
  cases x with
  | ok a => simp [ok_or]
  | err e => simp [ok_or]
  | panic => exact absurd rfl h

theorem ok_or_eq_ok {α : Type} {message : String} {x : Outcome Unit α} {a : α} :
    ok_or message x = .ok a ↔ x = .ok a := by
  cases x with
  | ok b => simp [ok_or]
  | err e => simp [ok_or]
  | panic => simp [ok_or]

/-- What is cut out is in the text. -/
theorem extract_str_ne_panic (text key : Text) : extract_str text key ≠ .panic := by
  rw [extract_str]
  dsimp only
  refine Outcome.bind_ne_panic (Outcome.ofOption_ne_panic _ _) fun i hi => ?_
  rw [Outcome.ofOption_eq_ok] at hi
  obtain ⟨before, after, rfl, rfl⟩ := Text.find_eq_some hi
  rw [slice_from_after, Outcome.ok_bind]
  refine Outcome.bind_ne_panic (Outcome.ofOption_ne_panic _ _) fun j hj => ?_
  rw [Outcome.ofOption_eq_ok] at hj
  obtain ⟨value, c, rest, rfl, rfl⟩ := Text.find_char_eq_some hj
  rw [slice_after]
  simp

theorem extract_u64_ne_panic (text key : Text) : extract_u64 text key ≠ .panic := by
  rw [extract_u64]
  dsimp only
  refine Outcome.bind_ne_panic (Outcome.ofOption_ne_panic _ _) fun i hi => ?_
  rw [Outcome.ofOption_eq_ok] at hi
  obtain ⟨before, after, rfl, rfl⟩ := Text.find_eq_some hi
  rw [slice_from_after, Outcome.ok_bind]
  refine Outcome.bind_ne_panic ?_ fun digits _ => Outcome.ofOption_ne_panic _ _
  cases hend : Text.find_char (fun c => !c.isDigit) after with
  | some j =>
    obtain ⟨value, c, rest, rfl, rfl⟩ := Text.find_char_eq_some hend
    rw [Option.map_some, Option.getD_some, Nat.add_comm _ (Text.size value), slice_after]
    simp
  | none =>
    -- the number goes to the end of the text
    have hwhole := slice_after Unit before ('"' :: key ++ "\":".toList) after []
    rw [List.append_nil, Nat.add_comm (Text.size after), ← Text.size_append,
      ← Text.size_append] at hwhole
    rw [Option.map_none, Option.getD_none, ← Text.size_append, hwhole]
    simp

theorem parse_claims_ne_panic (raw : Bytes) : parse_claims raw ≠ .panic := by
  refine Outcome.bind_ne_panic (ok_or_ne_panic (extract_str_ne_panic _ _)) fun sid _ => ?_
  refine Outcome.bind_ne_panic (ok_or_ne_panic (extract_u64_ne_panic _ _)) fun exp _ => ?_
  show Outcome.ok _ ≠ _
  simp

/-- The segments of a token are what stands between its dots. -/
theorem segments_eq_ok {header body sig : Text} (h : segments token = .ok (header, body, sig)) :
    token = header ++ '.' :: body ++ '.' :: sig ∧ '.' ∉ sig := by
  have hsplit : token.splitOn '.' = [header, body, sig] := by
    unfold segments at h
    split at h
    · contradiction
    · contradiction
    · contradiction
    · next hthree =>
      simp only [Except.ok.injEq, Prod.mk.injEq] at h
      obtain ⟨rfl, rfl, rfl⟩ := h
      exact hthree
    · contradiction
  have hjoin : token = header ++ '.' :: body ++ '.' :: sig := by
    have hwhole : ['.'].intercalate (token.splitOn '.') = token := List.intercalate_splitOn '.'
    rw [← hwhole, hsplit]
    simp [List.intercalate]
  refine ⟨hjoin, ?_⟩
  intro hmem
  obtain ⟨front, back, rfl⟩ := List.append_of_mem hmem
  -- there would be four segments
  have hpos : ∀ text : Text, 1 ≤ (text.splitOn '.').length :=
    fun text => List.length_pos_of_ne_nil (List.splitOn_ne_nil '.' text)
  have hlength := congrArg List.length hsplit
  rw [hjoin, List.append_assoc, List.cons_append, List.splitOn_append_cons_self,
    List.splitOn_append_cons_self, List.splitOn_append_cons_self] at hlength
  simp only [List.length_append, List.length_cons, List.length_nil] at hlength
  have hheader := hpos header
  have hbody := hpos body
  have hfront := hpos front
  have hback := hpos back
  omega

theorem verify_ne_panic (hmac : Hmac) (now : U64) (token : Text) (secret : Bytes) :
    verify hmac now token secret ≠ .panic := by
  have hdecode : ∀ message s, ok_or message (base64url_nopad_decode s) ≠ .panic :=
    fun _ s => ok_or_ne_panic (base64url_nopad_decode_ne_panic s)
  refine Outcome.bind_ne_panic (Outcome.ofExcept_ne_panic _) fun parts _ => ?_
  obtain ⟨header, body, sig⟩ := parts
  dsimp only
  refine Outcome.bind_ne_panic (hdecode _ _) fun decoded_sig _ =>
    Outcome.ite_err_ne_panic fun _ => ?_
  refine Outcome.bind_ne_panic (hdecode _ _) fun header_bytes _ =>
    Outcome.ite_err_ne_panic fun _ => ?_
  refine Outcome.bind_ne_panic (hdecode _ _) fun body_text _ => ?_
  refine Outcome.bind_ne_panic (parse_claims_ne_panic _) fun payload _ =>
    Outcome.ite_err_ne_panic fun _ => ?_
  refine Outcome.bind_ne_panic (Outcome.ofExcept_ne_panic _) fun bytes _ => ?_
  show Outcome.ok _ ≠ _
  simp

/-- **A token that is accepted** carries the tag of the text before it. -/
theorem tag_of_verify (h : verify hmac now token secret = .ok id) :
    ∃ input sig, token = input ++ '.' :: sig ∧ '.' ∉ sig ∧
      base64url_nopad_decode sig = .ok (hmac secret (Text.as_bytes input)) := by
  obtain ⟨⟨header, body, sig⟩, hsegments, h⟩ := Outcome.bind_eq_ok.mp h
  obtain ⟨decoded_sig, hdecode, h⟩ := Outcome.bind_eq_ok.mp h
  obtain ⟨htag, -⟩ := Outcome.ite_err_eq_ok.mp h
  rw [Outcome.ofExcept_eq_ok] at hsegments
  rw [ok_or_eq_ok] at hdecode
  rw [not_not] at htag
  obtain ⟨htoken, hdot⟩ := segments_eq_ok hsegments
  exact ⟨_, sig, htoken, hdot, by rw [hdecode, htag]⟩

/-- **Tokens round-trip**: what is issued is accepted exactly until it expires, for the session of
its four bytes; what is encoded is decoded to what it was; and whatever the verifier is given it
does not panic, and accepts only what carries the tag of the text before the tag. -/
theorem tokens_round_trip (hmac : Hmac) :
    (∀ secret id now ttl_secs, ∃ token, issue hmac now secret id ttl_secs = .ok token ∧
      ∀ later : U64, verify hmac later token secret =
        if later.val < saturatingAdd now.val ttl_secs.val then .ok (V1.SessionId.of_wire id.wire)
        else .err ⟨"token expired"⟩) ∧
    (∀ data, ∃ text, (base64url_nopad data : Outcome Error Text) = .ok text ∧
      base64url_nopad_decode text = .ok data) ∧
    ∀ now token secret, verify hmac now token secret ≠ .panic ∧
      ∀ id, verify hmac now token secret = .ok id →
        ∃ input sig, token = input ++ '.' :: sig ∧ '.' ∉ sig ∧
          base64url_nopad_decode sig = .ok (hmac secret (Text.as_bytes input)) := by
  refine ⟨fun secret id now ttl_secs => verify_issued hmac secret id now ttl_secs, ?_, ?_⟩
  · intro data
    obtain ⟨text, hencode, hdecode, -⟩ := base64url_round_trip Error data
    exact ⟨text, hencode, hdecode 0⟩
  · exact fun now token secret => ⟨verify_ne_panic hmac now token secret, fun id => tag_of_verify⟩

end Accepted

end StreamGuard.Auth
