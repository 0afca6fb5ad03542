import WtbAutoware.Platform

/-!
# FDILink frames

The serial protocol of the IMU. A frame is a header of seven bytes, a payload whose
length its type fixes, and an end byte:

| bytes | field                                              |
|-------|----------------------------------------------------|
| 0     | start, `0xfc`                                      |
| 1     | type                                               |
| 2     | payload length                                     |
| 3     | serial number                                      |
| 4     | CRC8 of the four bytes before it                   |
| 5, 6  | CRC16 of the payload, high byte first              |
| 7 ..  | payload                                            |
| last  | end, `0xfd`                                        |

`readRound` is the reads of one pass of `processLoop`. They depend on the bytes
alone: a pass gives up at the first header byte that does not fit, and reads the
payload only behind a header whose CRC8 matches. A `ReadFrame` is such a frame, with
its CRC16 and its end byte not yet looked at (`ReadFrame.Valid`). `readAll` cuts a
byte stream into rounds, and `rounds_eq_readAll` says that it never stops early.
`encode` writes a frame, and `readRound_encode` reads it back.
-/

namespace WtbAutoware
namespace Ahrs

abbrev Byte := BitVec 8

/-! ### Checksums -/

/-- `CRC8Table`. -/
def crc8TableEntries : List Byte := [
    0, 94, 188, 226, 97, 63, 221, 131, 194, 156, 126, 32, 163, 253, 31, 65,
    157, 195, 33, 127, 252, 162, 64, 30, 95, 1, 227, 189, 62, 96, 130, 220,
    35, 125, 159, 193, 66, 28, 254, 160, 225, 191, 93, 3, 128, 222, 60, 98,
    190, 224, 2, 92, 223, 129, 99, 61, 124, 34, 192, 158, 29, 67, 161, 255,
    70, 24, 250, 164, 39, 121, 155, 197, 132, 218, 56, 102, 229, 187, 89, 7,
    219, 133, 103, 57, 186, 228, 6, 88, 25, 71, 165, 251, 120, 38, 196, 154,
    101, 59, 217, 135, 4, 90, 184, 230, 167, 249, 27, 69, 198, 152, 122, 36,
    248, 166, 68, 26, 153, 199, 37, 123, 58, 100, 134, 216, 91, 5, 231, 185,
    140, 210, 48, 110, 237, 179, 81, 15, 78, 16, 242, 172, 47, 113, 147, 205,
    17, 79, 173, 243, 112, 46, 204, 146, 211, 141, 111, 49, 178, 236, 14, 80,
    175, 241, 19, 77, 206, 144, 114, 44, 109, 51, 209, 143, 12, 82, 176, 238,
    50, 108, 142, 208, 83, 13, 239, 177, 240, 174, 76, 18, 145, 207, 45, 115,
    202, 148, 118, 40, 171, 245, 23, 73, 8, 86, 180, 234, 105, 55, 213, 139,
    87, 9, 235, 181, 54, 104, 138, 212, 149, 203, 41, 119, 244, 170, 72, 22,
    233, 183, 85, 11, 136, 214, 52, 106, 43, 117, 151, 201, 74, 20, 246, 168,
    116, 42, 200, 150, 21, 75, 169, 247, 182, 232, 10, 84, 215, 137, 107, 53]

/-- `CRC16Table`. -/
def crc16TableEntries : List (BitVec 16) := [
    0x0000, 0x1021, 0x2042, 0x3063, 0x4084, 0x50A5, 0x60C6, 0x70E7,
    0x8108, 0x9129, 0xA14A, 0xB16B, 0xC18C, 0xD1AD, 0xE1CE, 0xF1EF,
    0x1231, 0x0210, 0x3273, 0x2252, 0x52B5, 0x4294, 0x72F7, 0x62D6,
    0x9339, 0x8318, 0xB37B, 0xA35A, 0xD3BD, 0xC39C, 0xF3FF, 0xE3DE,
    0x2462, 0x3443, 0x0420, 0x1401, 0x64E6, 0x74C7, 0x44A4, 0x5485,
    0xA56A, 0xB54B, 0x8528, 0x9509, 0xE5EE, 0xF5CF, 0xC5AC, 0xD58D,
    0x3653, 0x2672, 0x1611, 0x0630, 0x76D7, 0x66F6, 0x5695, 0x46B4,
    0xB75B, 0xA77A, 0x9719, 0x8738, 0xF7DF, 0xE7FE, 0xD79D, 0xC7BC,
    0x48C4, 0x58E5, 0x6886, 0x78A7, 0x0840, 0x1861, 0x2802, 0x3823,
    0xC9CC, 0xD9ED, 0xE98E, 0xF9AF, 0x8948, 0x9969, 0xA90A, 0xB92B,
    0x5AF5, 0x4AD4, 0x7AB7, 0x6A96, 0x1A71, 0x0A50, 0x3A33, 0x2A12,
    0xDBFD, 0xCBDC, 0xFBBF, 0xEB9E, 0x9B79, 0x8B58, 0xBB3B, 0xAB1A,
    0x6CA6, 0x7C87, 0x4CE4, 0x5CC5, 0x2C22, 0x3C03, 0x0C60, 0x1C41,
    0xEDAE, 0xFD8F, 0xCDEC, 0xDDCD, 0xAD2A, 0xBD0B, 0x8D68, 0x9D49,
    0x7E97, 0x6EB6, 0x5ED5, 0x4EF4, 0x3E13, 0x2E32, 0x1E51, 0x0E70,
    0xFF9F, 0xEFBE, 0xDFDD, 0xCFFC, 0xBF1B, 0xAF3A, 0x9F59, 0x8F78,
    0x9188, 0x81A9, 0xB1CA, 0xA1EB, 0xD10C, 0xC12D, 0xF14E, 0xE16F,
    0x1080, 0x00A1, 0x30C2, 0x20E3, 0x5004, 0x4025, 0x7046, 0x6067,
    0x83B9, 0x9398, 0xA3FB, 0xB3DA, 0xC33D, 0xD31C, 0xE37F, 0xF35E,
    0x02B1, 0x1290, 0x22F3, 0x32D2, 0x4235, 0x5214, 0x6277, 0x7256,
    0xB5EA, 0xA5CB, 0x95A8, 0x8589, 0xF56E, 0xE54F, 0xD52C, 0xC50D,
    0x34E2, 0x24C3, 0x14A0, 0x0481, 0x7466, 0x6447, 0x5424, 0x4405,
    0xA7DB, 0xB7FA, 0x8799, 0x97B8, 0xE75F, 0xF77E, 0xC71D, 0xD73C,
    0x26D3, 0x36F2, 0x0691, 0x16B0, 0x6657, 0x7676, 0x4615, 0x5634,
    0xD94C, 0xC96D, 0xF90E, 0xE92F, 0x99C8, 0x89E9, 0xB98A, 0xA9AB,
    0x5844, 0x4865, 0x7806, 0x6827, 0x18C0, 0x08E1, 0x3882, 0x28A3,
    0xCB7D, 0xDB5C, 0xEB3F, 0xFB1E, 0x8BF9, 0x9BD8, 0xABBB, 0xBB9A,
    0x4A75, 0x5A54, 0x6A37, 0x7A16, 0x0AF1, 0x1AD0, 0x2AB3, 0x3A92,
    0xFD2E, 0xED0F, 0xDD6C, 0xCD4D, 0xBDAA, 0xAD8B, 0x9DE8, 0x8DC9,
    0x7C26, 0x6C07, 0x5C64, 0x4C45, 0x3CA2, 0x2C83, 0x1CE0, 0x0CC1,
    0xEF1F, 0xFF3E, 0xCF5D, 0xDF7C, 0xAF9B, 0xBFBA, 0x8FD9, 0x9FF8,
    0x6E17, 0x7E36, 0x4E55, 0x5E74, 0x2E93, 0x3EB2, 0x0ED1, 0x1EF0]

/-- The bytes that a checksum of `p` goes through: their number is passed as a `uint8_t`. -/
def covered (p : List Byte) : List Byte := p.take (BitVec.ofNat 8 p.length).toNat

theorem covered_eq {p : List Byte} (h : p.length < 256) : covered p = p := by
  have hlen : (BitVec.ofNat 8 p.length).toNat = p.length := by
    rw [BitVec.toNat_ofNat]
    exact Nat.mod_eq_of_lt h
  rw [covered, hlen, List.take_length]

/-- One pass of the loop of `CRC8_Table`. -/
def crc8Next (crc8 value : Byte) : Byte := crc8TableEntries.getD (crc8 ^^^ value).toNat 0

/-- `CRC8_Table`. -/
def crc8Table (p : List Byte) : Byte := (covered p).foldl crc8Next 0

/-- One pass of the loop of `CRC16_Table`. -/
def crc16Next (crc16 : BitVec 16) (value : Byte) : BitVec 16 :=
  crc16TableEntries.getD (((crc16 >>> 8) ^^^ value.setWidth 16) &&& 0xff).toNat 0 ^^^ (crc16 <<< 8)

/-- `CRC16_Table`. -/
def crc16Table (p : List Byte) : BitVec 16 := (covered p).foldl crc16Next 0

/-! ### Frames -/

/-- The frame types that carry data. -/
inductive FrameType where
  | imu
  | ahrs
  | insgps
  | geodeticPos
  deriving DecidableEq

/-- `TYPE_IMU`, `TYPE_AHRS`, `TYPE_INSGPS` and `TYPE_GEODETIC_POS`. -/
def FrameType.code : FrameType → Byte
  | .imu => 0x40
  | .ahrs => 0x41
  | .insgps => 0x42
  | .geodeticPos => 0x5c

/-- `IMU_LEN`, `AHRS_LEN`, `INSGPS_LEN` and `GEODETIC_POS_LEN`. -/
def FrameType.len : FrameType → Byte
  | .imu => 0x38
  | .ahrs => 0x30
  | .insgps => 0x48
  | .geodeticPos => 0x20

/-- The type of a frame with data, by its code. -/
def FrameType.ofCode (type : Byte) : Option FrameType :=
  if type = FrameType.imu.code then some .imu
  else if type = FrameType.ahrs.code then some .ahrs
  else if type = FrameType.insgps.code then some .insgps
  else if type = FrameType.geodeticPos.code then some .geodeticPos
  else none

/-- `FRAME_HEAD`. -/
def frameHead : Byte := 0xfc

/-- `FRAME_END`. -/
def frameEndByte : Byte := 0xfd

/-- `TYPE_GROUND`, and the second type that is skipped together with it. -/
def IsGround (type : Byte) : Prop := type = 0xf0 ∨ type = 0x50

instance : DecidablePred IsGround := fun _ => inferInstanceAs (Decidable (_ ∨ _))

/-- `fdilink_header`. -/
structure Header where
  headerStart : Byte
  dataType : Byte
  dataSize : Byte
  serialNum : Byte
  headerCrc8 : Byte
  headerCrc16H : Byte
  headerCrc16L : Byte
  deriving DecidableEq

/-- The CRC8 that a header ought to have. -/
def Header.crc8 (h : Header) : Byte :=
  crc8Table [h.headerStart, h.dataType, h.dataSize, h.serialNum]

/-- `head_crc16`. -/
def Header.crc16 (h : Header) : BitVec 16 :=
  h.headerCrc16L.setWidth 16 + (h.headerCrc16H.setWidth 16 <<< 8)

/-- A frame that has been read: its header fits, and its CRC8 matches. -/
structure ReadFrame where
  type : FrameType
  header : Header
  data : List Byte
  frameEnd : Byte
  header_crc8 : header.crc8 = header.headerCrc8
  length_data : data.length = type.len.toNat

/-- The CRC16 of the payload and the end byte are right. -/
def ReadFrame.Valid (f : ReadFrame) : Prop :=
  f.header.crc16 = crc16Table f.data ∧ f.frameEnd = frameEndByte

instance : DecidablePred ReadFrame.Valid := fun _ => inferInstanceAs (Decidable (_ ∧ _))

/-- What one pass of the loop reads. -/
inductive Round where
  /-- A head, type or length byte does not fit. -/
  | skipped
  /-- A frame of a ground type, of which only the serial number is looked at. -/
  | ground (sn : Byte)
  /-- A header of type `0xff`, which is accepted and stands for nothing. -/
  | ignored
  /-- The CRC8 of the header does not match. -/
  | badHeader (type : FrameType) (header : Header)
  | frame (f : ReadFrame)

/-! ### Reading -/

/-- The read of a payload and its end byte. -/
def readData (type : FrameType) (header : Header) (h : header.crc8 = header.headerCrc8)
    (bytes : List Byte) : Option (Round × List Byte) :=
  let data := bytes.take type.len.toNat
  match bytes.drop type.len.toNat with
  | [] => none
  | frameEnd :: rest =>
    if hlen : data.length = type.len.toNat then
      some (.frame ⟨type, header, data, frameEnd, h, hlen⟩, rest)
    else none

/-- The rest of a frame whose type and length fit. -/
def readFrame (type : FrameType) (dataSize : Byte) : List Byte → Option (Round × List Byte)
  | serialNum :: headerCrc8 :: headerCrc16H :: headerCrc16L :: bytes =>
    let header : Header :=
      ⟨frameHead, type.code, dataSize, serialNum, headerCrc8, headerCrc16H, headerCrc16L⟩
    if h : header.crc8 = header.headerCrc8 then readData type header h bytes
    else some (.badHeader type header, bytes)
  | _ => none

/-- The rest of a frame of a ground type: the serial number, and the bytes that are
dropped unread. -/
def readGround (dataSize : Byte) : List Byte → Option (Round × List Byte)
  | [] => none
  | sn :: bytes =>
    if bytes.length < dataSize.toNat + 4 then none
    else some (.ground sn, bytes.drop (dataSize.toNat + 4))

/-- The rest of a header of type `0xff`. -/
def readIgnored : List Byte → Option (Round × List Byte)
  | _ :: _ :: _ :: _ :: bytes => some (.ignored, bytes)
  | _ => none

/-- One pass of the loop over the bytes that are still to come; `none` while it waits
for bytes that are missing. -/
def readRound : List Byte → Option (Round × List Byte)
  | [] => none
  | head :: bytes =>
    if head ≠ frameHead then some (.skipped, bytes)
    else
      match bytes with
      | [] => none
      | type :: bytes =>
        if FrameType.ofCode type = none ∧ ¬ IsGround type ∧ type ≠ 0xff then
          some (.skipped, bytes)
        else
          match bytes with
          | [] => none
          | dataSize :: bytes =>
            match FrameType.ofCode type with
            | some t =>
              if dataSize ≠ t.len then some (.skipped, bytes) else readFrame t dataSize bytes
            | none => if IsGround type then readGround dataSize bytes else readIgnored bytes

/-- At most `n` rounds. -/
def rounds : ℕ → List Byte → List Round
  | 0, _ => []
  | n + 1, bytes =>
    match readRound bytes with
    | none => []
    | some (r, rest) => r :: rounds n rest

/-- The rounds of a byte stream, up to the first that is not complete. -/
def readAll (bytes : List Byte) : List Round := rounds bytes.length bytes

/-! ### Writing -/

/-- The header of a frame with this CRC16. -/
def encodeHeader (type : FrameType) (serialNum : Byte) (crc16 : BitVec 16) : Header where
  headerStart := frameHead
  dataType := type.code
  dataSize := type.len
  serialNum := serialNum
  headerCrc8 := crc8Table [frameHead, type.code, type.len, serialNum]
  headerCrc16H := (crc16 >>> 8).setWidth 8
  headerCrc16L := crc16.setWidth 8

/-- `frame_header`. -/
def Header.bytes (h : Header) : List Byte :=
  [h.headerStart, h.dataType, h.dataSize, h.serialNum, h.headerCrc8, h.headerCrc16H,
    h.headerCrc16L]

/-- A frame on the wire. -/
def encode (type : FrameType) (serialNum : Byte) (crc16 : BitVec 16) (data : List Byte) :
    List Byte :=
  (encodeHeader type serialNum crc16).bytes ++ (data ++ [frameEndByte])

@[simp] theorem FrameType.ofCode_code (type : FrameType) :
    FrameType.ofCode type.code = some type := by
  cases type <;> rfl

@[simp] theorem crc16_encodeHeader (type : FrameType) (serialNum : Byte) (crc16 : BitVec 16) :
    (encodeHeader type serialNum crc16).crc16 = crc16 := by
  apply BitVec.eq_of_toNat_eq
  have hlt := crc16.isLt
  simp only [Header.crc16, encodeHeader, BitVec.toNat_add, BitVec.toNat_setWidth,
    BitVec.toNat_shiftLeft, BitVec.toNat_ushiftRight, Nat.shiftRight_eq_div_pow,
    Nat.shiftLeft_eq]
  omega

/-- **Round trip.** A frame whose payload has the length of its type is read back from
the front of any stream, and is valid exactly if its CRC16 is that of the payload. -/
theorem readRound_encode (type : FrameType) (serialNum : Byte) (crc16 : BitVec 16)
    (data : List Byte) (hlen : data.length = type.len.toNat) (rest : List Byte) :
    ∃ f : ReadFrame, readRound (encode type serialNum crc16 data ++ rest) =
        some (.frame f, rest) ∧
      f.type = type ∧ f.header = encodeHeader type serialNum crc16 ∧ f.data = data ∧
      (f.Valid ↔ crc16 = crc16Table data) := by
  have hcrc8 : (encodeHeader type serialNum crc16).crc8 =
      (encodeHeader type serialNum crc16).headerCrc8 := rfl
  refine ⟨⟨type, encodeHeader type serialNum crc16, data, frameEndByte, hcrc8, hlen⟩, ?_,
    rfl, rfl, rfl, ?_⟩
  · -- the header fits, so the pass gets to the payload
    have hheader : readRound (encode type serialNum crc16 data ++ rest) =
        readData type (encodeHeader type serialNum crc16) hcrc8
          (data ++ frameEndByte :: rest) := by
      have hframe : readRound (encode type serialNum crc16 data ++ rest) =
          readFrame type type.len ((encodeHeader type serialNum crc16).bytes.drop 3 ++
            (data ++ frameEndByte :: rest)) := by
        simp [encode, Header.bytes, readRound, encodeHeader]
      rw [hframe]
      exact dif_pos hcrc8
    rw [hheader, readData]
    have hdrop : (data ++ frameEndByte :: rest).drop type.len.toNat = frameEndByte :: rest := by
      rw [← hlen, List.drop_left]
    have htake : (data ++ frameEndByte :: rest).take type.len.toNat = data := by
      rw [← hlen, List.take_left]
    simp only [hdrop, htake, dif_pos hlen]
  · unfold ReadFrame.Valid
    rw [crc16_encodeHeader]
    exact and_iff_left rfl

/-! ### Every round consumes -/

section Progress

variable {bytes rest : List Byte} {r : Round}

theorem length_readData {type : FrameType} {header : Header}
    {h : header.crc8 = header.headerCrc8} (hr : readData type header h bytes = some (r, rest)) :
    rest.length < bytes.length := by
  unfold readData at hr
  dsimp only at hr
  have hdrop := List.length_drop (i := type.len.toNat) (l := bytes)
  split at hr
  · exact absurd hr (by simp)
  · next frameEnd rest' heq =>
    split at hr
    · obtain ⟨-, rfl⟩ := Prod.mk.inj (Option.some.inj hr)
      rw [heq, List.length_cons] at hdrop
      omega
    · exact absurd hr (by simp)

theorem length_readFrame {type : FrameType} {dataSize : Byte}
    (hr : readFrame type dataSize bytes = some (r, rest)) : rest.length < bytes.length := by
  unfold readFrame at hr
  split at hr
  · dsimp only at hr
    split at hr
    · have hlen := length_readData hr
      simp only [List.length_cons]
      omega
    · obtain ⟨-, rfl⟩ := Prod.mk.inj (Option.some.inj hr)
      simp only [List.length_cons]
      omega
  · exact absurd hr (by simp)

theorem length_readGround {dataSize : Byte}
    (hr : readGround dataSize bytes = some (r, rest)) : rest.length < bytes.length := by
  unfold readGround at hr
  split at hr
  · exact absurd hr (by simp)
  · split at hr
    · exact absurd hr (by simp)
    · obtain ⟨-, rfl⟩ := Prod.mk.inj (Option.some.inj hr)
      rw [List.length_drop, List.length_cons]
      omega

theorem length_readIgnored (hr : readIgnored bytes = some (r, rest)) :
    rest.length < bytes.length := by
  unfold readIgnored at hr
  split at hr
  · obtain ⟨-, rfl⟩ := Prod.mk.inj (Option.some.inj hr)
    simp only [List.length_cons]
    omega
  · exact absurd hr (by simp)

/-- A pass that comes to its end has read at least one byte. -/
theorem length_readRound (hr : readRound bytes = some (r, rest)) :
    rest.length < bytes.length := by
  unfold readRound at hr
  split at hr
  · exact absurd hr (by simp)
  · next head bytes₁ =>
    rw [List.length_cons]
    split at hr
    · obtain ⟨-, rfl⟩ := Prod.mk.inj (Option.some.inj hr)
      omega
    · split at hr
      · exact absurd hr (by simp)
      · next type bytes₂ =>
        rw [List.length_cons]
        split at hr
        · obtain ⟨-, rfl⟩ := Prod.mk.inj (Option.some.inj hr)
          omega
        · split at hr
          · exact absurd hr (by simp)
          · next dataSize bytes₃ =>
            rw [List.length_cons]
            split at hr
            · split at hr
              · obtain ⟨-, rfl⟩ := Prod.mk.inj (Option.some.inj hr)
                omega
              · have := length_readFrame hr
                omega
            · split at hr
              · have := length_readGround hr
                omega
              · have := length_readIgnored hr
                omega

end Progress

/-- Two bounds that both allow a round for each byte give the same rounds. -/
theorem rounds_congr {n m : ℕ} {bytes : List Byte} (hn : bytes.length ≤ n)
    (hm : bytes.length ≤ m) : rounds n bytes = rounds m bytes := by
  induction n generalizing m bytes with
  | zero =>
    obtain rfl := List.length_eq_zero_iff.mp (Nat.le_zero.mp hn)
    cases m <;> rfl
  | succ n ih =>
    cases m with
    | zero =>
      obtain rfl := List.length_eq_zero_iff.mp (Nat.le_zero.mp hm)
      rfl
    | succ m =>
      rw [rounds, rounds]
      cases hr : readRound bytes with
      | none => rfl
      | some p =>
        -- the rest is shorter, so either bound is enough for it
        have hrest := length_readRound hr
        exact congrArg (p.1 :: ·) (ih (by omega) (by omega))

/-- As many rounds as there are bytes are enough. -/
theorem rounds_eq_readAll {n : ℕ} {bytes : List Byte} (h : bytes.length ≤ n) :
    rounds n bytes = readAll bytes := rounds_congr h le_rfl

@[simp] theorem readAll_nil : readAll [] = [] := rfl

theorem readAll_of_readRound {bytes rest : List Byte} {r : Round}
    (hr : readRound bytes = some (r, rest)) : readAll bytes = r :: readAll rest := by
  have hlen := length_readRound hr
  obtain ⟨m, hm⟩ : ∃ m, bytes.length = m + 1 := Nat.exists_eq_succ_of_ne_zero (by omega)
  rw [readAll, hm, rounds, hr]
  exact congrArg (r :: ·) (rounds_eq_readAll (by omega))

end Ahrs
end WtbAutoware
