import BotsterHub.SessionType.Spawn
import Mathlib.Data.FinEnum

/-!
The credential of a session (`session_credential.rs`).

A token is a session id, a dot and the hex digits of a secret; it proves its session while that
runs and has the secret's digest. Texts are lists of bytes, SHA-256 is any function.
-/

namespace BotsterHub.SessionType.Token

open List

abbrev Text := List UInt8

/-- The bytes of a secret or of a digest. -/
abbrev Block := { bytes : List UInt8 // bytes.length = 32 }

def hexDigit (nibble : UInt8) : UInt8 := if nibble < 10 then 0x30 + nibble else 0x57 + nibble

def hexValue (digit : UInt8) : Option UInt8 :=
  if 0x30 ≤ digit ∧ digit ≤ 0x39 then some (digit - 0x30)
  else if 0x61 ≤ digit ∧ digit ≤ 0x66 then some (digit - 0x61 + 10)
  else none

def hexPair (byte : UInt8) : Text := [hexDigit (byte >>> 4), hexDigit (byte &&& 0x0f)]

def pushHex (text : Text) (bytes : Block) : Text := text ++ bytes.1.flatMap hexPair

def readHex : Text → Option (List UInt8)
  | high :: low :: rest => do
    let high ← hexValue high
    let low ← hexValue low
    let bytes ← readHex rest
    some ((high <<< 4 ||| low) :: bytes)
  | _ => some []

theorem hexPair_spec : ∀ byte : UInt8, 0x2e ∉ hexPair byte ∧
    hexValue (hexDigit (byte >>> 4)) = some (byte >>> 4) ∧
    hexValue (hexDigit (byte &&& 0x0f)) = some (byte &&& 0x0f) ∧
    (byte >>> 4) <<< 4 ||| (byte &&& 0x0f) = byte := by
  decide +kernel

def nibbles : List UInt8 := (range 16).map UInt8.ofNat

theorem hexDigit_hexValue (h : hexValue digit = some n) : hexDigit n = digit ∧ n ∈ nibbles := by
  have hall : ∀ digit, (hexValue digit).all fun n => hexDigit n = digit ∧ n ∈ nibbles := by
    decide +kernel
  simpa [h] using hall digit

theorem hexPair_shift (hn : n ∈ nibbles) (hm : m ∈ nibbles) :
    hexPair (n <<< 4 ||| m) = [hexDigit n, hexDigit m] := by
  have hall : nibbles.all fun n => nibbles.all fun m =>
      hexPair (n <<< 4 ||| m) = [hexDigit n, hexDigit m] := by
    decide +kernel
  exact of_decide_eq_true (all_eq_true.mp (all_eq_true.mp hall n hn) m hm)

theorem readHex_flatMap (bytes : List UInt8) : readHex (bytes.flatMap hexPair) = some bytes := by
  induction bytes with
  | nil => rfl
  | cons byte _ ih =>
    obtain ⟨-, hhigh, hlow, hbyte⟩ := hexPair_spec byte
    simp [hexPair, readHex, hhigh, hlow, ih, hbyte]

theorem flatMap_of_readHex {text : Text} {bytes : List UInt8} (h : readHex text = some bytes)
    (he : text.length % 2 = 0) : bytes.flatMap hexPair = text := by
  induction text using readHex.induct generalizing bytes with
  | case1 high low rest ih =>
    simp only [readHex, Option.bind_eq_bind, Option.bind_eq_some_iff] at h
    obtain ⟨n, hn, m, hm, tail, ht, h⟩ := h
    cases h
    obtain ⟨hhigh, hn⟩ := hexDigit_hexValue hn
    obtain ⟨hlow, hm⟩ := hexDigit_hexValue hm
    rw [flatMap_cons, hexPair_shift hn hm, hhigh, hlow, ih ht (by grind)]
    rfl
  | case2 text hne =>
    match text with
    | [] =>
      cases h
      rfl
    | [_] => cases he
    | high :: low :: rest => exact absurd rfl (hne high low rest)

theorem length_hex (bytes : List UInt8) : (bytes.flatMap hexPair).length = 2 * bytes.length := by
  simp [length_flatMap, hexPair, Nat.mul_comm]

theorem dot_notMem_hex (bytes : List UInt8) : 0x2e ∉ bytes.flatMap hexPair := by
  intro h
  obtain ⟨byte, -, hm⟩ := mem_flatMap.mp h
  exact (hexPair_spec byte).1 hm

def tokenDigestMetadataKey : String := "botster.caller_token_sha256"

structure SpawnRequest where
  sessionId : Text
  environment : List (String × Text)

def tokenText (sessionId : Text) (secret : Block) : Text := pushHex (sessionId ++ [0x2e]) secret

variable (sha256 : List UInt8 → Block)

def digestText (secret : Block) : Text := pushHex [] (sha256 secret.1)

/-- Whether `issue` succeeds, with what it leaves. `entropy` is what the entropy source gives. -/
def issue (mcpUrl : Option Text) (entropy : Option Block) (request : SpawnRequest)
    (metadata : Dict String Text) : Bool × SpawnRequest × Dict String Text :=
  match entropy with
  | none => (false, request, metadata)
  | some secret =>
    -- `token_len` does not fit.
    if 2 ^ 64 ≤ request.sessionId.length + 65 then (false, request, metadata)
    else
      let kept := request.environment.filter fun v =>
        v.1 ≠ mcpTokenEnvironment ∧ v.1 ≠ mcpUrlEnvironment
      let token := (mcpTokenEnvironment, tokenText request.sessionId secret)
      let url := (mcpUrl.map fun url => (mcpUrlEnvironment, url)).toList
      (true, { request with environment := kept ++ token :: url },
        metadata.insert tokenDigestMetadataKey (digestText sha256 secret))

def rsplitOnce (c : UInt8) : Text → Option (Text × Text)
  | [] => none
  | byte :: rest =>
    match rsplitOnce c rest with
    | some (head, tail) => some (byte :: head, tail)
    | none => if byte = c then some ([], rest) else none

def isAsciiGraphic (byte : UInt8) : Bool := 0x21 ≤ byte && byte ≤ 0x7e

structure CallerToken where
  sessionId : Text
  secretDigest : Block

def parse (text : Text) : Option CallerToken :=
  match rsplitOnce 0x2e text with
  | none => none
  | some (sessionId, secret) =>
    if sessionId = [] ∨ sessionId.all isAsciiGraphic = false then none
    else if secret.length ≠ 64 then none
    else (readHex secret).map fun bytes => ⟨sessionId, sha256 bytes⟩

variable {c : UInt8} {text head tail id id' : Text} {secret secret' : Block}

theorem rsplitOnce_of_notMem (h : c ∉ text) : rsplitOnce c text = none := by
  induction text with
  | nil => rfl
  | cons byte rest ih =>
    obtain ⟨hne, hr⟩ := not_or.mp (mem_cons.not.mp h)
    rw [rsplitOnce, ih hr]
    exact if_neg (Ne.symm hne)

theorem rsplitOnce_append (h : c ∉ tail) (head : Text) :
    rsplitOnce c (head ++ c :: tail) = some (head, tail) := by
  induction head with
  | nil => simp [rsplitOnce, rsplitOnce_of_notMem h]
  | cons byte head ih => simp [rsplitOnce, ih]

theorem eq_of_rsplitOnce (h : rsplitOnce c text = some (head, tail)) :
    text = head ++ c :: tail := by
  induction text generalizing head with
  | nil => cases h
  | cons byte rest ih =>
    rw [rsplitOnce] at h
    split at h
    · next hr =>
      cases h
      rw [ih hr]
      rfl
    · split at h
      · next heq =>
        cases h
        rw [heq]
        rfl
      · cases h

theorem tokenText_eq (id : Text) (secret : Block) :
    tokenText id secret = id ++ 0x2e :: secret.1.flatMap hexPair := by
  simp [tokenText, pushHex]

theorem parse_tokenText (hne : id ≠ []) (hg : id.all isAsciiGraphic = true) (secret : Block) :
    parse sha256 (tokenText id secret) = some ⟨id, sha256 secret.1⟩ := by
  have hl : (secret.1.flatMap hexPair).length = 64 := by
    rw [length_hex, secret.2]
  rw [parse, tokenText_eq, rsplitOnce_append (dot_notMem_hex _)]
  simp [hne, hg, hl, readHex_flatMap]

theorem tokenText_of_parse {sha256 : List UInt8 → Block} {token : CallerToken}
    (h : parse sha256 text = some token) : ∃ secret, text = tokenText token.sessionId secret ∧
      token.secretDigest = sha256 secret.1 := by
  rw [parse] at h
  split at h
  · cases h
  next id secret hs =>
  split at h
  · cases h
  split at h
  · cases h
  next hl =>
  rw [not_not] at hl
  obtain ⟨bytes, hb, rfl⟩ := Option.map_eq_some_iff.mp h
  -- 64 digits that are read are the digits of what was read, so of 32 bytes
  have hhex := flatMap_of_readHex hb (by rw [hl])
  have hlength := length_hex bytes
  rw [hhex, hl] at hlength
  refine ⟨⟨bytes, by omega⟩, ?_, rfl⟩
  rw [tokenText_eq, eq_of_rsplitOnce hs]
  exact congrArg (id ++ 0x2e :: ·) hhex.symm

theorem tokenText_injective (h : tokenText id secret = tokenText id' secret') :
    id = id' ∧ secret = secret' := by
  rw [tokenText_eq, tokenText_eq] at h
  obtain ⟨hid, ht⟩ := append_inj' h (by simp only [length_cons, length_hex, secret.2, secret'.2])
  have hr := congrArg readHex (cons.inj ht).2
  rw [readHex_flatMap, readHex_flatMap] at hr
  exact ⟨hid, Subtype.ext (Option.some.inj hr)⟩

/-- The loop of `matches` over the expected digits, with the stored ones from there on. -/
def difference (d : UInt8) : Text → Text → UInt8
  | [], _ => d
  | byte :: rest, stored => difference (d ||| (stored.headD 0 ^^^ byte)) rest stored.tail

def CallerToken.isMatch (token : CallerToken) (stored : Text) : Bool :=
  let expected := pushHex [] token.secretDigest
  difference (if stored.length ≠ expected.length then 1 else 0) expected stored = 0

/-- What Core says during one submission: whether a session is found running, and its metadata. -/
structure CoreSessions where
  running : Text → Bool
  metadata : Text → Option (Dict String Text)

/-- `prove_caller`; a caller without a token is the operator. -/
def proveCaller (core : CoreSessions) : Option CallerToken → Bool
  | none => true
  | some token => core.running token.sessionId &&
      (core.metadata token.sessionId).any fun metadata =>
        (metadata.lookup tokenDigestMetadataKey).any token.isMatch

theorem difference_eq_zero {expected stored : Text} {d : UInt8} :
    difference d expected stored = 0 → d = 0 ∧
      (stored.length = expected.length → stored = expected) := by
  induction expected generalizing d stored with
  | nil => simp_all [difference]
  | cons byte rest ih =>
    intro h
    obtain ⟨hd, hrest⟩ := ih h
    -- the accumulator is zero only if it was, and this byte added nothing
    rw [UInt8.or_eq_zero_iff, UInt8.xor_eq_zero_iff] at hd
    refine ⟨hd.1, fun hl => ?_⟩
    cases stored with
    | nil => cases hl
    | cons => exact congrArg₂ cons hd.2 (hrest (Nat.succ.inj hl))

theorem difference_self (expected : Text) : difference 0 expected expected = 0 := by
  induction expected with
  | nil => rfl
  | cons byte rest ih => simpa [difference] using ih

theorem isMatch_iff {token : CallerToken} {stored : Text} :
    token.isMatch stored = true ↔ stored = pushHex [] token.secretDigest := by
  rw [CallerToken.isMatch, decide_eq_true_iff]
  constructor
  · intro h
    obtain ⟨hd, heq⟩ := difference_eq_zero h
    exact heq (by simpa using hd)
  · rintro rfl
    simp [difference_self]

structure Proves : Prop where
  parses : ∀ id secret, id ≠ [] → id.all isAsciiGraphic = true → ∃ token,
    parse sha256 (tokenText id secret) = some token ∧ token.sessionId = id ∧
      ∀ stored, token.isMatch stored = true ↔ stored = digestText sha256 secret
  unique : ∀ text token, parse sha256 text = some token →
    ∃! issued : Text × Block, tokenText issued.1 issued.2 = text
  authorized : ∀ a secret core token, parse sha256 (tokenText a secret) = some token →
    proveCaller core (some token) = true → ∀ b, token.sessionId = b → a = b ∧
      core.running b = true ∧ ∃ metadata ∈ core.metadata b,
        metadata.lookup tokenDigestMetadataKey = some (digestText sha256 secret)
  issued : ∀ url secret request metadata request' metadata',
    issue sha256 url (some secret) request metadata = (true, request', metadata') →
    (mcpTokenEnvironment, tokenText request.sessionId secret) ∈ request'.environment ∧
      metadata'.lookup tokenDigestMetadataKey = some (digestText sha256 secret)
  failed : ∀ url entropy request metadata, (issue sha256 url entropy request metadata).1 = false →
    (issue sha256 url entropy request metadata).2 = (request, metadata)

/-- A token proves the one session it was issued for, and an issue that fails leaves no trace. -/
theorem token_proves : Proves sha256 where
  parses id secret hne hg := ⟨_, parse_tokenText sha256 hne hg secret, rfl, fun _ => isMatch_iff⟩
  unique text token h := by
    obtain ⟨secret, rfl, -⟩ := tokenText_of_parse h
    refine ⟨(token.sessionId, secret), rfl, fun issued heq => ?_⟩
    obtain ⟨hid, hsecret⟩ := tokenText_injective heq
    exact Prod.ext hid hsecret
  authorized a secret core token hparse hproven b hb := by
    obtain ⟨secret', htoken, hdigest⟩ := tokenText_of_parse hparse
    obtain ⟨rfl, rfl⟩ := tokenText_injective htoken
    simp only [proveCaller, Bool.and_eq_true, Option.any_eq_true] at hproven
    obtain ⟨hrunning, metadata, hm, stored, hs, hmatch⟩ := hproven
    refine ⟨hb, hb ▸ hrunning, metadata, hb ▸ hm, ?_⟩
    rw [hs, isMatch_iff.mp hmatch, hdigest]
    rfl
  issued url secret request metadata request' metadata' h := by
    rw [issue] at h
    split at h
    · cases h
    · cases h
      simp
  failed url entropy request metadata h := by
    unfold issue at h ⊢
    grind

def zeroSecret : Block := ⟨replicate 32 0, rfl⟩

/-- The token of the empty id. -/
theorem empty_id_not_parsed : ([] : Text).all isAsciiGraphic = true ∧
    parse (fun _ => zeroSecret) (tokenText [] zeroSecret) = none :=
  ⟨rfl, rfl⟩

end BotsterHub.SessionType.Token
