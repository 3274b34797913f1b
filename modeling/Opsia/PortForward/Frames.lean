import Mathlib
import Opsia.Lib.BigEndian

/-!
# Port-forward data frames

The binary frames of the port-forward protocol: a header of 32 bytes, the session id in ASCII and
the payload. A frame with numbers that fit the header is encoded and decoded back, and bytes are
decoded exactly if they are the encoding of the frame they are decoded to.
-/

namespace Opsia.PortForward

open BigEndian

abbrev Bytes := List UInt8

/-- What the codec can raise. -/
inductive CodecError where
  /-- `ValueError`, with its message -/
  | valueError (message : String)
  /-- `struct.error`: an argument of `pack` is out of range -/
  | structError
  /-- `UnicodeEncodeError` -/
  | unicodeEncodeError
  deriving DecidableEq

inductive PortForwardDirection where
  | desktopToTarget
  | targetToDesktop
  deriving DecidableEq

def maxPortForwardFrameBytes : ℕ := 16 * 1024

def maxPortForwardBytesPerDirection : ℕ := 1024 * 1024 * 1024

/-- A character that `_SESSION_PATTERN` takes. -/
def isSessionChar (c : Char) : Bool := c.isAlphanum || c == '_' || c == '-'

/-- `_SESSION_PATTERN.fullmatch`. -/
def sessionMatches (sessionId : String) : Bool :=
  sessionId.toList.all isSessionChar && decide (16 ≤ sessionId.length ∧ sessionId.length ≤ 64)

/-- `PortForwardDataFrame`, with what `__post_init__` checks. -/
structure PortForwardDataFrame where
  sessionId : String
  generation : ℤ
  connectionId : ℤ
  sequence : ℤ
  direction : PortForwardDirection
  payload : Bytes
  session_ok : sessionMatches sessionId = true
  generation_ok : 1 ≤ generation
  connection_ok : 1 ≤ connectionId ∧ connectionId ≤ 2 ^ 32 - 1
  sequence_ok : 0 ≤ sequence
  payload_ok : 1 ≤ payload.length ∧ payload.length ≤ maxPortForwardFrameBytes
  deriving DecidableEq

/-- The constructor of `PortForwardDataFrame`, with `__post_init__`. -/
def PortForwardDataFrame.make (sessionId : String) (generation connectionId sequence : ℤ)
    (direction : PortForwardDirection) (payload : Bytes) :
    Except CodecError PortForwardDataFrame :=
  if hsession : sessionMatches sessionId = true then
    if hgeneration : 1 ≤ generation then
      if hconnection : 1 ≤ connectionId ∧ connectionId ≤ 2 ^ 32 - 1 then
        if hsequence : 0 ≤ sequence then
          if hpayload : 1 ≤ payload.length ∧ payload.length ≤ maxPortForwardFrameBytes then
            .ok ⟨sessionId, generation, connectionId, sequence, direction, payload, hsession,
              hgeneration, hconnection, hsequence, hpayload⟩
          else .error (.valueError "port-forward payload is outside the frame budget")
        else .error (.valueError "invalid port-forward sequence")
      else .error (.valueError "invalid port-forward connection id")
    else .error (.valueError "invalid port-forward generation")
  else .error (.valueError "invalid port-forward session id")

theorem PortForwardDataFrame.make_self (frame : PortForwardDataFrame) :
    make frame.sessionId frame.generation frame.connectionId frame.sequence frame.direction
      frame.payload = .ok frame := by
  simp only [make, dif_pos frame.session_ok, dif_pos frame.generation_ok,
    dif_pos frame.connection_ok, dif_pos frame.sequence_ok, dif_pos frame.payload_ok]

variable {raw : Bytes} {sessionId : String} {direction : PortForwardDirection}
  {frame : PortForwardDataFrame}

theorem PortForwardDataFrame.make_eq_ok {generation connectionId sequence : ℤ} {payload : Bytes}
    (h : make sessionId generation connectionId sequence direction payload = .ok frame) :
    frame.sessionId = sessionId ∧ frame.generation = generation ∧
      frame.connectionId = connectionId ∧ frame.sequence = sequence ∧
      frame.direction = direction ∧ frame.payload = payload := by
  simp only [make] at h
  split_ifs at h
  obtain rfl := Except.ok.inj h
  exact ⟨rfl, rfl, rfl, rfl, rfl, rfl⟩

theorem PortForwardDataFrame.make_eq_error {generation connectionId sequence : ℤ} {payload : Bytes}
    {error : CodecError}
    (h : make sessionId generation connectionId sequence direction payload = .error error) :
    ∃ message, error = .valueError message := by
  simp only [make] at h
  split_ifs at h <;> exact ⟨_, (Except.error.inj h).symm⟩

/-! ## The header -/

def frameMagic : Bytes := "OPF1".toList.map fun c => UInt8.ofNat c.toNat

def frameVersion : ℤ := 1

def directionToCode : PortForwardDirection → ℤ
  | .desktopToTarget => 1
  | .targetToDesktop => 2

def codeToDirection (code : ℤ) : Option PortForwardDirection :=
  if code = 1 then some .desktopToTarget
  else if code = 2 then some .targetToDesktop
  else none

theorem codeToDirection_eq_some_iff {code : ℤ} :
    codeToDirection code = some direction ↔ code = directionToCode direction := by
  cases direction <;> simp only [codeToDirection, directionToCode] <;> split_ifs <;> simp_all

/-- The fields of `_FRAME_HEADER`, `!4sBBHQQII`. -/
structure FrameHeader where
  magic : Bytes
  version : ℤ
  direction : ℤ
  sessionLength : ℤ
  generation : ℤ
  sequence : ℤ
  connectionId : ℤ
  payloadLength : ℤ
  deriving DecidableEq

def frameHeaderSize : ℕ := 32

/-- A number of a width, as `pack` writes it. -/
def packInt (width : ℕ) (n : ℤ) : Except CodecError Bytes :=
  if 0 ≤ n ∧ n < 256 ^ width then .ok (bytes width n.toNat) else .error .structError

def FrameHeader.pack (header : FrameHeader) : Except CodecError Bytes := do
  let version ← packInt 1 header.version
  let direction ← packInt 1 header.direction
  let sessionLength ← packInt 2 header.sessionLength
  let generation ← packInt 8 header.generation
  let sequence ← packInt 8 header.sequence
  let connectionId ← packInt 4 header.connectionId
  let payloadLength ← packInt 4 header.payloadLength
  return header.magic ++ version ++ direction ++ sessionLength ++ generation ++ sequence ++
    connectionId ++ payloadLength

def FrameHeader.unpackFrom (raw : Bytes) : FrameHeader where
  magic := slice raw 0 4
  version := value (slice raw 4 1)
  direction := value (slice raw 5 1)
  sessionLength := value (slice raw 6 2)
  generation := value (slice raw 8 8)
  sequence := value (slice raw 16 8)
  connectionId := value (slice raw 24 4)
  payloadLength := value (slice raw 28 4)

/-! ## The codec -/

/-- `str.encode("ascii")`. -/
def asciiEncode (text : String) : Except CodecError Bytes :=
  if text.toList.all fun c => decide (c.toNat < 128) then
    .ok (text.toList.map fun c => UInt8.ofNat c.toNat)
  else .error .unicodeEncodeError

/-- `bytes.decode("ascii")`, `none` for `UnicodeDecodeError`. -/
def asciiDecode (raw : Bytes) : Option String :=
  if raw.all fun byte => decide (byte.toNat < 128) then
    some (String.ofList (raw.map fun byte => Char.ofNat byte.toNat))
  else none

def encodePortForwardData (frame : PortForwardDataFrame) : Except CodecError Bytes := do
  let session ← asciiEncode frame.sessionId
  let header ← FrameHeader.pack
    { magic := frameMagic
      version := frameVersion
      direction := directionToCode frame.direction
      sessionLength := session.length
      generation := frame.generation
      sequence := frame.sequence
      connectionId := frame.connectionId
      payloadLength := frame.payload.length }
  return header ++ session ++ frame.payload

def decodePortForwardData (raw : Bytes) : Except CodecError PortForwardDataFrame := do
  if raw.length < frameHeaderSize then
    throw (.valueError "port-forward frame header is truncated")
  let header := FrameHeader.unpackFrom raw
  if header.magic ≠ frameMagic ∨ header.version ≠ frameVersion then
    throw (.valueError "unsupported port-forward frame")
  let some direction := codeToDirection header.direction
    | throw (.valueError "invalid port-forward frame direction")
  if ¬(16 ≤ header.sessionLength ∧ header.sessionLength ≤ 64) then
    throw (.valueError "invalid port-forward frame session length")
  if ¬(1 ≤ header.payloadLength ∧ header.payloadLength ≤ maxPortForwardFrameBytes) then
    throw (.valueError "invalid port-forward frame payload length")
  if (raw.length : ℤ) ≠ frameHeaderSize + header.sessionLength + header.payloadLength then
    throw (.valueError "port-forward frame length is inconsistent")
  let sessionLength := header.sessionLength.toNat
  let some sessionId := asciiDecode (slice raw frameHeaderSize sessionLength)
    | throw (.valueError "port-forward session id must be ASCII")
  PortForwardDataFrame.make sessionId header.generation header.connectionId header.sequence
    direction (raw.drop (frameHeaderSize + sessionLength))

/-! ## The header packs and unpacks -/

/-- The numbers of a header that `pack` takes. -/
structure FrameHeader.Fits (header : FrameHeader) : Prop where
  magic : header.magic.length = 4
  version : 0 ≤ header.version ∧ header.version < 256 ^ 1
  direction : 0 ≤ header.direction ∧ header.direction < 256 ^ 1
  sessionLength : 0 ≤ header.sessionLength ∧ header.sessionLength < 256 ^ 2
  generation : 0 ≤ header.generation ∧ header.generation < 256 ^ 8
  sequence : 0 ≤ header.sequence ∧ header.sequence < 256 ^ 8
  connectionId : 0 ≤ header.connectionId ∧ header.connectionId < 256 ^ 4
  payloadLength : 0 ≤ header.payloadLength ∧ header.payloadLength < 256 ^ 4

/-- The bytes of a header. -/
def FrameHeader.packed (header : FrameHeader) : Bytes :=
  header.magic ++ bytes 1 header.version.toNat ++ bytes 1 header.direction.toNat ++
    bytes 2 header.sessionLength.toNat ++ bytes 8 header.generation.toNat ++
    bytes 8 header.sequence.toNat ++ bytes 4 header.connectionId.toNat ++
    bytes 4 header.payloadLength.toNat

theorem FrameHeader.pack_of_fits {header : FrameHeader} (h : header.Fits) :
    header.pack = .ok header.packed := by
  simp only [pack, packInt, if_pos h.version, if_pos h.direction, if_pos h.sessionLength,
    if_pos h.generation, if_pos h.sequence, if_pos h.connectionId, if_pos h.payloadLength]
  rfl

/-- `pack` of a number that does not fit raises. -/
theorem FrameHeader.fits_of_pack {header : FrameHeader} (hmagic : header.magic.length = 4)
    (h : header.pack = .ok raw) : header.Fits := by
  have hint : ∀ {width : ℕ} {n : ℤ} {f : Bytes → Except CodecError Bytes},
      (packInt width n >>= f) = .ok raw →
        (0 ≤ n ∧ n < 256 ^ width) ∧ f (bytes width n.toNat) = .ok raw := by
    intro width n f hbind
    by_cases hfits : 0 ≤ n ∧ n < 256 ^ width
    · rw [packInt, if_pos hfits] at hbind
      exact ⟨hfits, hbind⟩
    · rw [packInt, if_neg hfits] at hbind
      cases hbind
  obtain ⟨hversion, h⟩ := hint h
  obtain ⟨hdirection, h⟩ := hint h
  obtain ⟨hsession, h⟩ := hint h
  obtain ⟨hgeneration, h⟩ := hint h
  obtain ⟨hsequence, h⟩ := hint h
  obtain ⟨hconnection, h⟩ := hint h
  obtain ⟨hpayload, -⟩ := hint h
  exact ⟨hmagic, hversion, hdirection, hsession, hgeneration, hsequence, hconnection, hpayload⟩

theorem FrameHeader.length_packed {header : FrameHeader} (h : header.magic.length = 4) :
    header.packed.length = frameHeaderSize := by
  simp only [packed, List.length_append, length_bytes, h, frameHeaderSize]

/-- **What was packed is unpacked.** -/
theorem FrameHeader.unpackFrom_packed {header : FrameHeader} (h : header.Fits) (rest : Bytes) :
    unpackFrom (header.packed ++ rest) = header := by
  have hvalue : ∀ {width : ℕ} {n : ℤ}, 0 ≤ n ∧ n < 256 ^ width →
      (value (bytes width n.toNat) : ℤ) = n := by
    intro width n hn
    have hlt : n.toNat < 256 ^ width := by
      have hcast : ((256 ^ width : ℕ) : ℤ) = 256 ^ width := by norm_cast
      omega
    rw [value_bytes hlt]
    omega
  have hmagic := h.magic
  simp only [unpackFrom, packed, List.append_assoc, slice_append_left h.magic]
  simp only [slice_append_right, slice_append_left, hmagic, length_bytes, Nat.reduceLeDiff,
    Nat.reduceSub, hvalue h.version, hvalue h.direction, hvalue h.sessionLength,
    hvalue h.generation, hvalue h.sequence, hvalue h.connectionId, hvalue h.payloadLength]

theorem fits_value {offset width : ℕ} (h : offset + width ≤ raw.length) :
    0 ≤ (value (slice raw offset width) : ℤ) ∧
      (value (slice raw offset width) : ℤ) < 256 ^ width := by
  have hlt := value_lt (slice raw offset width)
  rw [length_slice h] at hlt
  exact ⟨Int.natCast_nonneg _, by exact_mod_cast hlt⟩

theorem FrameHeader.fits_unpackFrom (h : frameHeaderSize ≤ raw.length) :
    (unpackFrom raw).Fits := by
  simp only [frameHeaderSize] at h
  exact ⟨length_slice (by omega), fits_value (by omega), fits_value (by omega),
    fits_value (by omega), fits_value (by omega), fits_value (by omega), fits_value (by omega),
    fits_value (by omega)⟩

/-- **What was unpacked is packed.** -/
theorem FrameHeader.packed_unpackFrom (h : frameHeaderSize ≤ raw.length) :
    (unpackFrom raw).packed ++ raw.drop frameHeaderSize = raw := by
  simp only [frameHeaderSize] at h
  have hbytes : ∀ {offset width : ℕ}, offset + width ≤ raw.length →
      bytes width (value (slice raw offset width) : ℤ).toNat = slice raw offset width := by
    intro offset width hin
    have hself := bytes_value (slice raw offset width)
    rwa [length_slice hin] at hself
  simp only [packed, unpackFrom, List.append_assoc]
  rw [hbytes (by omega), hbytes (by omega), hbytes (by omega), hbytes (by omega),
    hbytes (by omega), hbytes (by omega), hbytes (by omega)]
  simp only [frameHeaderSize, slice_append_drop raw 28 4, slice_append_drop raw 24 4,
    slice_append_drop raw 16 8, slice_append_drop raw 8 8, slice_append_drop raw 6 2,
    slice_append_drop raw 5 1, slice_append_drop raw 4 1, slice_append_drop raw 0 4,
    List.drop_zero]

/-! ## The session id in ASCII -/

theorem toNat_lt_of_isSessionChar {c : Char} (h : isSessionChar c = true) : c.toNat < 128 := by
  simp only [isSessionChar, Char.isAlphanum, Char.isAlpha, Char.isUpper, Char.isLower,
    Char.isDigit, Bool.or_eq_true, Bool.and_eq_true, decide_eq_true_eq, beq_iff_eq] at h
  have hval : c.toNat = c.val.toNat := rfl
  have hle : ∀ bound : UInt32, c.val ≤ bound → bound.toNat < 128 → c.toNat < 128 := by
    intro bound hbound hlt
    exact lt_of_le_of_lt (UInt32.le_iff_toNat_le.mp hbound) hlt
  rcases h with (((⟨-, hupper⟩ | ⟨-, hlower⟩) | ⟨-, hdigit⟩) | rfl) | rfl
  · exact hle _ hupper (by decide)
  · exact hle _ hlower (by decide)
  · exact hle _ hdigit (by decide)
  · decide
  · decide

theorem ascii_of_sessionMatches (h : sessionMatches sessionId = true) :
    (sessionId.toList.all fun c => decide (c.toNat < 128)) = true := by
  obtain ⟨hchars, -⟩ := Bool.and_eq_true_iff.mp h
  rw [List.all_eq_true] at hchars ⊢
  intro c hc
  exact decide_eq_true (toNat_lt_of_isSessionChar (hchars c hc))

/-- **A session id is encoded, and decoded back.** -/
theorem asciiEncode_session (h : sessionMatches sessionId = true) :
    ∃ session, asciiEncode sessionId = .ok session ∧ asciiDecode session = some sessionId ∧
      session.length = sessionId.length := by
  have hascii := ascii_of_sessionMatches h
  have hlt := List.all_eq_true.mp hascii
  refine ⟨_, if_pos hascii, ?_, by rw [List.length_map, String.length_toList]⟩
  have hbyte : ∀ c ∈ sessionId.toList, (UInt8.ofNat c.toNat).toNat = c.toNat := by
    intro c hc
    have hc := of_decide_eq_true (hlt c hc)
    rw [UInt8.toNat_ofNat']
    omega
  rw [asciiDecode, if_pos, List.map_map]
  · have hback : sessionId.toList.map ((fun byte : UInt8 => Char.ofNat byte.toNat) ∘
        fun c => UInt8.ofNat c.toNat) = sessionId.toList := by
      refine (List.map_congr_left fun c hc => ?_).trans (List.map_id _)
      simp only [Function.comp_apply, hbyte c hc, Char.ofNat_toNat, id_eq]
    rw [hback, String.ofList_toList]
  · rw [List.all_eq_true]
    intro byte hmem
    obtain ⟨c, hc, rfl⟩ := List.mem_map.mp hmem
    rw [hbyte c hc]
    exact hlt c hc

theorem asciiEncode_of_asciiDecode {text : String} (h : asciiDecode raw = some text) :
    asciiEncode text = .ok raw := by
  simp only [asciiDecode] at h
  split_ifs at h with hascii
  obtain rfl := Option.some.inj h
  have hlt := List.all_eq_true.mp hascii
  have hchar : ∀ byte ∈ raw, (Char.ofNat byte.toNat).toNat = byte.toNat := by
    intro byte hbyte
    have hbyte := of_decide_eq_true (hlt byte hbyte)
    have hvalid : byte.toNat.isValidChar := Or.inl (by omega)
    simp [Char.ofNat, hvalid, Char.ofNatAux, Char.toNat]
  rw [asciiEncode, String.toList_ofList, if_pos, List.map_map]
  · congr 1
    refine (List.map_congr_left fun byte hbyte => ?_).trans (List.map_id _)
    simp only [Function.comp_apply, hchar byte hbyte, UInt8.ofNat_toNat, id_eq]
  · rw [List.all_eq_true]
    intro c hmem
    obtain ⟨byte, hbyte, rfl⟩ := List.mem_map.mp hmem
    rw [hchar byte hbyte]
    exact hlt byte hbyte

/-! ## The laws of the codec -/

/-- The numbers of a frame fit the header. -/
def PortForwardDataFrame.Encodable (frame : PortForwardDataFrame) : Prop :=
  frame.generation < 2 ^ 64 ∧ frame.sequence < 2 ^ 64

/-- The header of a frame. -/
def PortForwardDataFrame.header (frame : PortForwardDataFrame) : FrameHeader where
  magic := frameMagic
  version := frameVersion
  direction := directionToCode frame.direction
  sessionLength := frame.sessionId.length
  generation := frame.generation
  sequence := frame.sequence
  connectionId := frame.connectionId
  payloadLength := frame.payload.length

theorem PortForwardDataFrame.length_session (frame : PortForwardDataFrame) :
    16 ≤ frame.sessionId.length ∧ frame.sessionId.length ≤ 64 :=
  of_decide_eq_true (Bool.and_eq_true_iff.mp frame.session_ok).2

theorem PortForwardDataFrame.fits_header (h : frame.Encodable) :
    frame.header.Fits := by
  obtain ⟨hgeneration, hsequence⟩ := h
  obtain ⟨hsessionLow, hsessionHigh⟩ := frame.length_session
  obtain ⟨hconnectionLow, hconnectionHigh⟩ := frame.connection_ok
  obtain ⟨hpayloadLow, hpayloadHigh⟩ := frame.payload_ok
  have hgenerationLow := frame.generation_ok
  have hsequenceLow := frame.sequence_ok
  simp only [maxPortForwardFrameBytes] at hpayloadHigh
  refine ⟨rfl, (by decide : 0 ≤ (1 : ℤ) ∧ (1 : ℤ) < 256 ^ 1), ?_, ?_, ?_, ?_, ?_, ?_⟩
  · cases hdirection : frame.direction <;> simp [header, hdirection, directionToCode]
  all_goals
    simp only [header]
    constructor <;> omega

theorem encodePortForwardData_eq (frame : PortForwardDataFrame) :
    ∃ session, asciiEncode frame.sessionId = .ok session ∧
      asciiDecode session = some frame.sessionId ∧ session.length = frame.sessionId.length ∧
      encodePortForwardData frame =
        frame.header.pack.map fun header => header ++ session ++ frame.payload := by
  obtain ⟨session, hencode, hdecode, hlength⟩ := asciiEncode_session frame.session_ok
  refine ⟨session, hencode, hdecode, hlength, ?_⟩
  simp only [encodePortForwardData, hencode, PortForwardDataFrame.header, ← hlength]
  rfl

/-- **A frame is encoded exactly if its numbers fit the header.** -/
theorem encodable_iff (frame : PortForwardDataFrame) :
    (∃ raw, encodePortForwardData frame = .ok raw) ↔ frame.Encodable := by
  obtain ⟨session, -, -, -, heq⟩ := encodePortForwardData_eq frame
  constructor
  · rintro ⟨raw, hraw⟩
    rw [heq] at hraw
    cases hpack : frame.header.pack with
    | error error =>
      rw [hpack] at hraw
      cases hraw
    | ok header =>
      have hfits := FrameHeader.fits_of_pack rfl hpack
      have hgeneration := hfits.generation.2
      have hsequence := hfits.sequence.2
      simp only [PortForwardDataFrame.header] at hgeneration hsequence
      exact ⟨by omega, by omega⟩
  · intro h
    exact ⟨_, by rw [heq, FrameHeader.pack_of_fits (PortForwardDataFrame.fits_header h)]; rfl⟩

/-- What `decode_port_forward_data` finds before it constructs a frame. -/
structure Accepts (raw : Bytes) (direction : PortForwardDirection) (sessionId : String) :
    Prop where
  header : frameHeaderSize ≤ raw.length
  magic : (FrameHeader.unpackFrom raw).magic = frameMagic
  version : (FrameHeader.unpackFrom raw).version = frameVersion
  direction : codeToDirection (FrameHeader.unpackFrom raw).direction = some direction
  sessionLength : 16 ≤ (FrameHeader.unpackFrom raw).sessionLength ∧
    (FrameHeader.unpackFrom raw).sessionLength ≤ 64
  payloadLength : 1 ≤ (FrameHeader.unpackFrom raw).payloadLength ∧
    (FrameHeader.unpackFrom raw).payloadLength ≤ maxPortForwardFrameBytes
  length : (raw.length : ℤ) = frameHeaderSize + (FrameHeader.unpackFrom raw).sessionLength +
    (FrameHeader.unpackFrom raw).payloadLength
  session : asciiDecode (slice raw frameHeaderSize
    (FrameHeader.unpackFrom raw).sessionLength.toNat) = some sessionId

/-- The frame that accepted bytes are taken for. -/
def constructed (raw : Bytes) (direction : PortForwardDirection) (sessionId : String) :
    Except CodecError PortForwardDataFrame :=
  let header := FrameHeader.unpackFrom raw
  PortForwardDataFrame.make sessionId header.generation header.connectionId header.sequence
    direction (raw.drop (frameHeaderSize + header.sessionLength.toNat))

theorem decode_of_accepts (h : Accepts raw direction sessionId) :
    decodePortForwardData raw = constructed raw direction sessionId := by
  unfold decodePortForwardData
  rw [if_neg (Nat.not_lt.mpr h.header)]
  simp only [h.magic, h.version, h.direction, h.sessionLength, h.payloadLength, h.length,
    h.session, ne_eq, not_true_eq_false, or_self, if_false, and_self]
  rfl

/-- **Bytes are rejected with `ValueError` and nothing else, or accepted.** -/
theorem accepts_or_valueError (raw : Bytes) :
    (∃ direction sessionId, Accepts raw direction sessionId) ∨
      ∃ message, decodePortForwardData raw = .error (.valueError message) := by
  unfold decodePortForwardData
  by_cases hheader : raw.length < frameHeaderSize
  · exact .inr ⟨_, by rw [if_pos hheader]; rfl⟩
  rw [if_neg hheader]
  by_cases hmagic : (FrameHeader.unpackFrom raw).magic ≠ frameMagic ∨
      (FrameHeader.unpackFrom raw).version ≠ frameVersion
  · exact .inr ⟨_, by simp only [if_pos hmagic]; rfl⟩
  simp only [if_neg hmagic]
  cases hdirection : codeToDirection (FrameHeader.unpackFrom raw).direction with
  | none => exact .inr ⟨_, rfl⟩
  | some direction =>
    by_cases hsession : 16 ≤ (FrameHeader.unpackFrom raw).sessionLength ∧
        (FrameHeader.unpackFrom raw).sessionLength ≤ 64
    swap
    · exact .inr ⟨_, by simp only [if_pos hsession]; rfl⟩
    by_cases hpayload : 1 ≤ (FrameHeader.unpackFrom raw).payloadLength ∧
        (FrameHeader.unpackFrom raw).payloadLength ≤ maxPortForwardFrameBytes
    swap
    · exact .inr ⟨_, by simp only [if_neg (not_not.mpr hsession), if_pos hpayload]; rfl⟩
    by_cases hlength : (raw.length : ℤ) = frameHeaderSize +
        (FrameHeader.unpackFrom raw).sessionLength + (FrameHeader.unpackFrom raw).payloadLength
    swap
    · exact .inr ⟨_, by
        simp only [if_neg (not_not.mpr hsession), if_neg (not_not.mpr hpayload),
          if_pos hlength]; rfl⟩
    cases hascii : asciiDecode (slice raw frameHeaderSize
        (FrameHeader.unpackFrom raw).sessionLength.toNat) with
    | none =>
      exact .inr ⟨_, by
        simp only [if_neg (not_not.mpr hsession), if_neg (not_not.mpr hpayload),
          if_neg (not_not.mpr hlength)]; rfl⟩
    | some sessionId =>
      obtain ⟨hmagic, hversion⟩ := not_or.mp hmagic
      exact .inl ⟨direction, sessionId, Nat.not_lt.mp hheader, not_not.mp hmagic,
        not_not.mp hversion, hdirection, hsession, hpayload, hlength, hascii⟩

theorem decode_eq_error {error : CodecError} (h : decodePortForwardData raw = .error error) :
    ∃ message, error = .valueError message := by
  rcases accepts_or_valueError raw with ⟨direction, sessionId, haccepts⟩ | ⟨message, hmessage⟩
  · rw [decode_of_accepts haccepts] at h
    exact PortForwardDataFrame.make_eq_error h
  · rw [hmessage] at h
    exact ⟨message, (Except.error.inj h).symm⟩

/-- **An encoded frame is decoded back.** -/
theorem decode_of_encode (h : encodePortForwardData frame = .ok raw) :
    decodePortForwardData raw = .ok frame := by
  obtain ⟨session, -, hdecode, hlength, heq⟩ := encodePortForwardData_eq frame
  have hfits := PortForwardDataFrame.fits_header ((encodable_iff frame).mp ⟨raw, h⟩)
  have hraw : raw = frame.header.packed ++ (session ++ frame.payload) := by
    rw [heq, FrameHeader.pack_of_fits hfits] at h
    exact (Except.ok.inj h).symm.trans (List.append_assoc _ _ _)
  have hpacked : frame.header.packed.length = frameHeaderSize := FrameHeader.length_packed rfl
  have hunpack : FrameHeader.unpackFrom raw = frame.header := by
    rw [hraw]
    exact FrameHeader.unpackFrom_packed hfits _
  have hslice : slice raw frameHeaderSize frame.sessionId.length = session := by
    rw [hraw, slice_append_right (le_of_eq hpacked), hpacked, Nat.sub_self,
      slice_append_left hlength]
  have hpayload : raw.drop (frameHeaderSize + frame.sessionId.length) = frame.payload := by
    rw [hraw, ← hpacked, ← List.drop_drop, List.drop_left, ← hlength, List.drop_left]
  have hsize : (raw.length : ℤ) =
      frameHeaderSize + frame.sessionId.length + frame.payload.length := by
    rw [hraw, List.length_append, List.length_append, hpacked, hlength]
    omega
  obtain ⟨hsessionLow, hsessionHigh⟩ := frame.length_session
  obtain ⟨hpayloadLow, hpayloadHigh⟩ := frame.payload_ok
  have haccepts : Accepts raw frame.direction frame.sessionId := by
    refine ⟨by omega, ?_, ?_, ?_, ?_, ?_, ?_, ?_⟩ <;>
      rw [hunpack] <;> simp only [PortForwardDataFrame.header]
    · exact codeToDirection_eq_some_iff.mpr rfl
    · omega
    · omega
    · exact hsize
    · rw [Int.toNat_natCast, hslice, hdecode]
  rw [decode_of_accepts haccepts]
  simp only [constructed, hunpack, PortForwardDataFrame.header, Int.toNat_natCast, hpayload]
  exact frame.make_self

/-- **Decoded bytes are the encoding of their frame.** -/
theorem encode_of_decode (h : decodePortForwardData raw = .ok frame) :
    encodePortForwardData frame = .ok raw := by
  rcases accepts_or_valueError raw with ⟨direction, sessionId, haccepts⟩ | ⟨message, hmessage⟩
  swap
  · rw [hmessage] at h
    cases h
  rw [decode_of_accepts haccepts] at h
  obtain ⟨hsession, hgeneration, hconnection, hsequence, hdirection, hpayload⟩ :=
    PortForwardDataFrame.make_eq_ok h
  obtain ⟨session, hencode, -, hlength, heq⟩ := encodePortForwardData_eq frame
  have hslice : slice raw frameHeaderSize
      (FrameHeader.unpackFrom raw).sessionLength.toNat = session := by
    rw [hsession, asciiEncode_of_asciiDecode haccepts.session] at hencode
    exact Except.ok.inj hencode
  obtain ⟨hsessionLow, hsessionHigh⟩ := haccepts.sessionLength
  obtain ⟨hpayloadLow, hpayloadHigh⟩ := haccepts.payloadLength
  have hsize := haccepts.length
  have hsessionLength : (frame.sessionId.length : ℤ) =
      (FrameHeader.unpackFrom raw).sessionLength := by
    rw [← hlength, ← hslice, length_slice (by omega)]
    omega
  have hpayloadLength : (frame.payload.length : ℤ) =
      (FrameHeader.unpackFrom raw).payloadLength := by
    rw [hpayload, List.length_drop]
    omega
  have hheader : frame.header = FrameHeader.unpackFrom raw := by
    rw [PortForwardDataFrame.header, hsessionLength, hpayloadLength, hgeneration, hconnection,
      hsequence, hdirection, ← codeToDirection_eq_some_iff.mp haccepts.direction,
      ← haccepts.magic, ← haccepts.version]
  have hparts := slice_append_drop raw frameHeaderSize
    (FrameHeader.unpackFrom raw).sessionLength.toNat
  rw [heq, hheader, FrameHeader.pack_of_fits (FrameHeader.fits_unpackFrom haccepts.header),
    Except.map, List.append_assoc, hpayload, ← hslice, hparts,
    FrameHeader.packed_unpackFrom haccepts.header]

end Opsia.PortForward
