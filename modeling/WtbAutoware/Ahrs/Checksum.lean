import WtbAutoware.Ahrs.Resync
import WtbAutoware.Framework.BitField
import WtbAutoware.Framework.Crc

/-!
# What the checksums of a frame detect

Both tables hold the remainders of one byte each, so `CRC8_Table` and `CRC16_Table` are
the registers of `Framework/Crc.lean` (`checksum_eq_iff`): CRC8 with the generator
`x ^ 8 + x ^ 5 + x ^ 4 + 1`, the lowest bit of a byte first, and CRC16 with
`x ^ 16 + x ^ 12 + x ^ 5 + 1`, the highest bit first. The number of the bytes wraps around at 256
(`covered`), which no payload reaches.

The five bytes up to the CRC8 are then a codeword, and so is the payload with the CRC16
behind it. Both generators have an even number of terms, and a period longer than any
frame. So a frame in which transmission has flipped up to three bits before the CRC16, and
up to three from there on, is not published (`damaged_not_published`), nor is one whose
payload has been hit by a burst of sixteen bits (`burst_not_published`).
-/

namespace WtbAutoware
namespace Ahrs

open Reactive

/-! ### The tables -/

/-- The generator of `CRC8Table`. -/
def crc8Generator : Byte := 0x31

/-- The generator of `CRC16Table`. -/
def crc16Generator : BitVec 16 := 0x1021

/-- The bits of a byte string, the highest of each byte first. -/
def bitsHigh (bytes : List Byte) : List Bool := bytes.flatMap Crc.bits

/-- The bits of a byte string, the lowest of each byte first. -/
def bitsLow (bytes : List Byte) : List Bool := bitsHigh (bytes.map BitVec.reverse)

/-- In how many bits two byte strings differ. -/
def flipped (a b : List Byte) : ℕ := Crc.distance (bitsHigh a) (bitsHigh b)

theorem crc8TableEntries_eq : crc8TableEntries = (List.range 256).map fun i =>
    (Crc.run crc8Generator 0#8 (Crc.bits (BitVec.ofNat 8 i).reverse)).reverse := by
  decide +kernel

theorem crc16TableEntries_eq : crc16TableEntries = (List.range 256).map fun i =>
    Crc.run crc16Generator 0#16 (Crc.bits (BitVec.ofNat 8 i)) := by
  decide +kernel

theorem crc8TableEntries_getD (v : Byte) : crc8TableEntries.getD v.toNat 0 =
    (Crc.run crc8Generator 0#8 (Crc.bits v.reverse)).reverse := by
  have hlt : v.toNat < 256 := v.isLt
  rw [crc8TableEntries_eq, List.getD_eq_getElem?_getD, List.getElem?_map,
    List.getElem?_range hlt]
  simp

theorem crc16TableEntries_getD (v : Byte) :
    crc16TableEntries.getD v.toNat 0 = Crc.run crc16Generator 0#16 (Crc.bits v) := by
  have hlt : v.toNat < 256 := v.isLt
  rw [crc16TableEntries_eq, List.getD_eq_getElem?_getD, List.getElem?_map,
    List.getElem?_range hlt]
  simp

theorem crc8_generator : Crc.Generator crc8Generator 126 where
  const_term := by decide
  odd_count := by decide
  period := by decide +kernel

/-- The period is longer than the longest payload, of 72 bytes, and its CRC16. -/
theorem crc16_generator : Crc.Generator crc16Generator 591 where
  const_term := by decide
  odd_count := by decide
  period := by decide +kernel

/-! ### The tables compute remainders -/

theorem reverse_xor (a b : Byte) : (a ^^^ b).reverse = a.reverse ^^^ b.reverse := by
  apply BitVec.eq_of_getMsbD_eq
  intro i _
  simp [BitVec.getMsbD_reverse]

/-- The loop of `CRC8_Table` is the register, with its bits in the opposite order. -/
theorem reverse_foldl_crc8Next (p : List Byte) :
    (p.foldl crc8Next 0).reverse = Crc.run crc8Generator 0#8 (bitsLow p) := by
  induction p using List.reverseRecOn with
  | nil => rfl
  | append_singleton p v ih =>
    obtain ⟨c, hc⟩ : ∃ c, c = p.foldl crc8Next 0 := ⟨_, rfl⟩
    have hnext : (p ++ [v]).foldl crc8Next 0 = crc8TableEntries.getD (c ^^^ v).toNat 0 := by
      rw [List.foldl_append, ← hc]
      rfl
    have hbits : bitsLow (p ++ [v]) = bitsLow p ++ Crc.bits v.reverse := by
      simp [bitsLow, bitsHigh]
    rw [← hc] at ih
    -- all eight bits of the register are looked up, and none is left to shift
    have hlookup := Crc.run_lookup crc8Generator c.reverse (Crc.bits v.reverse)
    rw [Crc.length_bits] at hlookup
    have hshift : c.reverse <<< 8 = 0#8 := BitVec.shiftLeft_eq_zero (by omega)
    have htop : (List.range 8).map c.reverse.getMsbD = Crc.bits c.reverse := rfl
    rw [htop, ← Crc.bits_xor, ← reverse_xor, hshift, BitVec.xor_zero] at hlookup
    rw [hnext, crc8TableEntries_getD, BitVec.reverse_reverse_eq, hbits, Crc.run_append, ← ih,
      hlookup]

theorem getMsbD_high (c : BitVec 16) {i : ℕ} (hi : i < 8) :
    ((c >>> 8).setWidth 8).getMsbD i = c.getMsbD i := by
  have hi' : i + 8 < 16 := by omega
  simp [BitVec.getMsbD_setWidth, BitVec.getMsbD_ushiftRight, hi']

/-- The loop of `CRC16_Table` is the register. -/
theorem foldl_crc16Next (p : List Byte) :
    p.foldl crc16Next 0 = Crc.run crc16Generator 0#16 (bitsHigh p) := by
  induction p using List.reverseRecOn with
  | nil => rfl
  | append_singleton p v ih =>
    obtain ⟨c, hc⟩ : ∃ c, c = p.foldl crc16Next 0 := ⟨_, rfl⟩
    have hnext : (p ++ [v]).foldl crc16Next 0 = crc16TableEntries.getD
        (((c >>> 8) ^^^ v.setWidth 16) &&& 0xff).toNat 0 ^^^ c <<< 8 := by
      rw [List.foldl_append, ← hc]
      rfl
    rw [← hc] at ih
    have hbits : bitsHigh (p ++ [v]) = bitsHigh p ++ Crc.bits v := by simp [bitsHigh]
    -- the index is the upper byte of the register, combined with the byte that comes in
    have hindex : (((c >>> 8) ^^^ v.setWidth 16) &&& 0xff).toNat =
        ((c >>> 8).setWidth 8 ^^^ v).toNat := by
      have hlow := BitField.toNat_low ((c >>> 8) ^^^ v.setWidth 16)
        (show (0xff : BitVec 16).toNat = 2 ^ 8 - 1 from rfl)
      rw [hlow, ← BitVec.toNat_setWidth, BitVec.setWidth_xor]
      simp
    have hlookup := Crc.run_lookup crc16Generator c (Crc.bits v)
    rw [Crc.length_bits] at hlookup
    have htop : (List.range 8).map c.getMsbD = Crc.bits ((c >>> 8).setWidth 8) :=
      List.map_congr_left fun i hi => (getMsbD_high c (List.mem_range.mp hi)).symm
    rw [htop, ← Crc.bits_xor] at hlookup
    rw [hnext, hindex, crc16TableEntries_getD, hbits, Crc.run_append, ← ih, hlookup]

/-- A CRC16 is that of a byte string exactly if the two together are a codeword. -/
theorem crc16Table_eq_iff {p : List Byte} {crc16 : BitVec 16} : crc16Table p = crc16 ↔
    Crc.Codeword crc16Generator (bitsHigh (covered p) ++ Crc.bits crc16) := by
  rw [← Crc.run_eq_iff, ← foldl_crc16Next]
  rfl

theorem crc8Table_eq_iff {p : List Byte} {crc8 : Byte} : crc8Table p = crc8 ↔
    Crc.Codeword crc8Generator (bitsLow (covered p ++ [crc8])) := by
  have hbits : bitsLow (covered p ++ [crc8]) = bitsLow (covered p) ++ Crc.bits crc8.reverse := by
    simp [bitsLow, bitsHigh]
  rw [hbits, ← Crc.run_eq_iff, ← reverse_foldl_crc8Next]
  change _ ↔ (crc8Table p).reverse = crc8.reverse
  exact ⟨congrArg BitVec.reverse, fun h => by
    rw [← BitVec.reverse_reverse_eq (x := crc8Table p), h, BitVec.reverse_reverse_eq]⟩

/-- **The checksums are remainders.** A CRC8 or a CRC16 is accepted exactly if the bytes that
are covered, with the checksum behind them, are a multiple of the generator. -/
theorem checksum_eq_iff (p : List Byte) :
    (∀ crc8, crc8Table p = crc8 ↔
      Crc.Codeword crc8Generator (bitsLow (covered p ++ [crc8]))) ∧
    ∀ crc16, crc16Table p = crc16 ↔
      Crc.Codeword crc16Generator (bitsHigh (covered p) ++ Crc.bits crc16) :=
  ⟨fun _ => crc8Table_eq_iff, fun _ => crc16Table_eq_iff⟩

/-! ### Damage -/

/-- The order of the bits in a byte does not matter for how many of them differ. -/
theorem distance_bitsLow {a b : List Byte} (hlen : a.length = b.length) :
    Crc.distance (bitsLow a) (bitsLow b) = flipped a b := by
  induction a generalizing b with
  | nil =>
    obtain rfl := List.length_eq_zero_iff.mp hlen.symm
    rfl
  | cons x a ih =>
    cases b with
    | nil => simp at hlen
    | cons y b =>
      have hbyte : ∀ v : Byte, (Crc.bits v.reverse).count true = (Crc.bits v).count true := by
        decide
      have hlow : Crc.distance (bitsLow (x :: a)) (bitsLow (y :: b)) =
          (Crc.bits (x ^^^ y).reverse).count true + Crc.distance (bitsLow a) (bitsLow b) := by
        rw [reverse_xor, Crc.bits_xor]
        exact Crc.distance_append (by simp) _ _
      have hhigh : flipped (x :: a) (y :: b) =
          (Crc.bits (x ^^^ y)).count true + flipped a b := by
        rw [Crc.bits_xor]
        exact Crc.distance_append (by simp) _ _
      rw [hlow, hhigh, hbyte, ih (by simpa using hlen)]

theorem bitsHigh_injective {a b : List Byte} (hlen : a.length = b.length)
    (h : bitsHigh a = bitsHigh b) : a = b := by
  induction a generalizing b with
  | nil => exact (List.length_eq_zero_iff.mp hlen.symm).symm
  | cons x a ih =>
    cases b with
    | nil => simp at hlen
    | cons y b =>
      obtain ⟨hx, ha⟩ := List.append_inj h (by simp)
      rw [Crc.bits_injective hx, ih (by simpa using hlen) ha]

@[simp] theorem length_bitsHigh (bytes : List Byte) :
    (bitsHigh bytes).length = 8 * bytes.length := by
  induction bytes with
  | nil => rfl
  | cons x bytes ih =>
    change (Crc.bits x ++ bitsHigh bytes).length = _
    rw [List.length_append, ih, Crc.length_bits, List.length_cons]
    ring

@[simp] theorem length_bitsLow (bytes : List Byte) :
    (bitsLow bytes).length = 8 * bytes.length := by
  rw [bitsLow, length_bitsHigh, List.length_map]

theorem bitsLow_injective {a b : List Byte} (hlen : a.length = b.length)
    (h : bitsLow a = bitsLow b) : a = b := by
  have hmap := bitsHigh_injective (by simpa using hlen) h
  have hinv : Function.Involutive (BitVec.reverse : Byte → Byte) := fun _ =>
    BitVec.reverse_reverse_eq
  exact List.map_injective_iff.mpr hinv.injective hmap

theorem bitsHigh_append (a b : List Byte) : bitsHigh (a ++ b) = bitsHigh a ++ bitsHigh b :=
  List.flatMap_append

theorem flipped_append {a b : List Byte} (hlen : a.length = b.length) (c d : List Byte) :
    flipped (a ++ c) (b ++ d) = flipped a b + flipped c d := by
  unfold flipped
  rw [bitsHigh_append, bitsHigh_append, Crc.distance_append (by simp [hlen])]

/-- A CRC16 in a header. -/
def crc16Bytes (crc16 : BitVec 16) : List Byte := [(crc16 >>> 8).setWidth 8, crc16.setWidth 8]

theorem bits_crc16 (c : BitVec 16) : Crc.bits c = bitsHigh (crc16Bytes c) := by
  have hhigh : ∀ i < 8, ((c >>> 8).setWidth 8).getMsbD i = c.getMsbD i := fun i hi =>
    getMsbD_high c hi
  have hlow : ∀ i < 8, (c.setWidth 8).getMsbD i = c.getMsbD (i + 8) := fun i _ => by
    simp [BitVec.getMsbD_setWidth]
  simp [Crc.bits, bitsHigh, crc16Bytes, List.range_succ, hhigh, hlow]

section Sent

variable {F : Type} (num : Numerics F) (P : Params)

/-- The five bytes that CRC8 is about. -/
theorem codeword_head {bytes : List Byte} (h : IsValidFrame bytes) :
    Crc.Codeword crc8Generator (bitsLow (bytes.take 5)) := by
  obtain ⟨type, sn, data, -, rfl⟩ := h
  exact crc8Table_eq_iff (p := [frameHead, type.code, type.len, sn]).mp rfl

/-- **Three flipped bits in the first five bytes are noticed.** -/
theorem take_eq_of_flipped {a b : List Byte} (ha : IsValidFrame a) (hb : IsValidFrame b)
    (hflip : flipped (a.take 5) (b.take 5) ≤ 3) : a.take 5 = b.take 5 := by
  have hlen : ∀ {bytes : List Byte}, IsValidFrame bytes → (bytes.take 5).length = 5 := by
    rintro bytes ⟨type, sn, data, -, rfl⟩
    rfl
  have heq : (a.take 5).length = (b.take 5).length := (hlen ha).trans (hlen hb).symm
  by_contra hne
  have hfour := Crc.Codeword.four_le_distance (by decide) crc8_generator (codeword_head ha)
    (codeword_head hb) (by simp only [length_bitsLow, heq])
    (by rw [length_bitsLow, hlen ha]; decide) fun h => hne (bitsLow_injective heq h)
  rw [distance_bitsLow heq] at hfour
  omega

/-- Frames that agree up to the CRC8 are of one type, and of one length. -/
theorem length_eq_of_take {a b : List Byte} (ha : IsValidFrame a) (hb : IsValidFrame b)
    (h : a.take 5 = b.take 5) : a.length = b.length := by
  obtain ⟨type, sn, data, hdata, rfl⟩ := ha
  obtain ⟨type', sn', data', hdata', rfl⟩ := hb
  have hcode : type.code = type'.code := by
    have hget := congrArg (fun l => l[1]?) h
    exact Option.some.inj hget
  have htype : type = type' := by
    have hsome := FrameType.ofCode_code type
    rw [hcode, FrameType.ofCode_code] at hsome
    exact (Option.some.inj hsome).symm
  subst htype
  simp only [encode, Header.bytes, List.length_append, hdata, hdata', List.length_cons,
    List.length_nil]

/-- **Three flipped bits in the payload and its CRC16 are noticed.** -/
theorem drop_eq_of_flipped {a b : List Byte} (ha : IsValidFrame a) (hb : IsValidFrame b)
    (hlen : a.length = b.length) (hflip : flipped (a.drop 5) (b.drop 5) ≤ 3) :
    a.drop 5 = b.drop 5 := by
  obtain ⟨type, sn, data, hdata, rfl⟩ := ha
  obtain ⟨type', sn', data', hdata', rfl⟩ := hb
  have hlen' : data.length = data'.length := by
    simpa [encode, Header.bytes] using hlen
  have hdrop : ∀ (type : FrameType) (sn : Byte) (crc16 : BitVec 16) (data : List Byte),
      (encode type sn crc16 data).drop 5 = crc16Bytes crc16 ++ (data ++ [frameEndByte]) :=
    fun type sn crc16 data => rfl
  rw [hdrop, hdrop] at hflip ⊢
  rw [flipped_append (by simp [crc16Bytes]), flipped_append hlen'] at hflip
  -- the codewords have the CRC16 behind the payload
  have hmax : type.len.toNat ≤ 72 := by cases type <;> decide
  have hcode : ∀ data : List Byte, data.length = type.len.toNat → Crc.Codeword crc16Generator
      (bitsHigh data ++ Crc.bits (crc16Table data)) := fun data hlen => by
    have hcovered := crc16Table_eq_iff.mp (Eq.refl (crc16Table data))
    rwa [covered_eq (by omega)] at hcovered
  have hdist : Crc.distance (bitsHigh data ++ Crc.bits (crc16Table data))
      (bitsHigh data' ++ Crc.bits (crc16Table data')) ≤ 3 := by
    rw [Crc.distance_append (by simp [hlen']), bits_crc16, bits_crc16]
    unfold flipped at hflip
    omega
  have heq : bitsHigh data ++ Crc.bits (crc16Table data) =
      bitsHigh data' ++ Crc.bits (crc16Table data') := by
    by_contra hne
    have hfour := Crc.Codeword.four_le_distance (by decide) crc16_generator
      (hcode data hdata) (hcode data' (hlen'.symm.trans hdata)) (by simp [hlen'])
      (by rw [List.length_append, length_bitsHigh, Crc.length_bits, hdata]; omega) hne
    omega
  rw [bitsHigh_injective hlen' (List.append_inj heq (by simp [hlen'])).1]

/-- **Damage is not published.** If transmission flips up to three bits of a frame before
its CRC16, and up to three bits from there on, then the pass that reads it publishes
nothing, whatever it takes the bytes for and whatever follows them. -/
theorem damaged_not_published (type : FrameType) (sn : Byte) {data : List Byte}
    (hdata : data.length = type.len.toNat) {received : List Byte}
    (hlen : received.length = (encode type sn (crc16Table data) data).length)
    (hhead : flipped (received.take 5) ((encode type sn (crc16Table data) data).take 5) ≤ 3)
    (hrest : flipped (received.drop 5) ((encode type sn (crc16Table data) data).drop 5) ≤ 3)
    (hne : received ≠ encode type sn (crc16Table data) data) {rest rest' : List Byte} {r : Round}
    (hread : readRound (received ++ rest) = some (r, rest')) (s : State) :
    (step num P s r).2 = [] := by
  have hsent : IsValidFrame (encode type sn (crc16Table data) data) := ⟨type, sn, data, hdata, rfl⟩
  by_contra hout
  obtain ⟨o, ho⟩ := List.exists_mem_of_ne_nil _ hout
  obtain ⟨f, rfl, hvalid, -⟩ := exists_frame_of_out num P ho
  obtain ⟨chunk, -, hbytes, hwire⟩ := exists_chunk hread
  have hchunk : IsValidFrame chunk := .of_onWire (hwire f rfl) hvalid
  -- what has been read is as long as what was sent
  have hfive : ∀ {bytes : List Byte}, IsValidFrame bytes → 5 ≤ bytes.length := by
    rintro bytes ⟨type, sn, data, -, rfl⟩
    simp [encode, Header.bytes]
  have htake : received.take 5 = chunk.take 5 := by
    have h := congrArg (List.take 5) hbytes
    rwa [List.take_append_of_le_length (hlen ▸ hfive hsent),
      List.take_append_of_le_length (hfive hchunk)] at h
  rw [htake] at hhead
  have hsame := take_eq_of_flipped hchunk hsent hhead
  have hlength := length_eq_of_take hchunk hsent hsame
  obtain ⟨rfl, -⟩ := List.append_inj hbytes (hlen.trans hlength.symm)
  apply hne
  rw [← List.take_append_drop 5 received, hsame, drop_eq_of_flipped hchunk hsent hlength hrest,
    List.take_append_drop]

/-- Three bits of the first byte of a payload of zeros are flipped. -/
theorem damaged_not_published_sample :
    ∃ r, readRound (encode .geodeticPos 0 (crc16Table (List.replicate 32 0))
        (0x07 :: List.replicate 31 0) ++ []) = some (r, []) ∧
      (step Numerics.rat ⟨0, "imu"⟩ (State.initial zeroBuffers) r).2 = [] := by
  obtain ⟨f, hread, -⟩ := readRound_encode .geodeticPos 0 (crc16Table (List.replicate 32 0))
    (0x07 :: List.replicate 31 0) rfl []
  exact ⟨.frame f, hread, damaged_not_published Numerics.rat ⟨0, "imu"⟩ .geodeticPos 0
    (show (List.replicate 32 (0 : Byte)).length = FrameType.geodeticPos.len.toNat from rfl)
    (show (encode .geodeticPos 0 (crc16Table (List.replicate 32 0))
      (0x07 :: List.replicate 31 0)).length = _ from rfl)
    (by decide +kernel) (by decide +kernel) (by decide +kernel) hread _⟩

/-- **Bursts are not published.** If transmission damages a payload within sixteen
consecutive bits only, then the frame is read, and nothing of it is published. -/
theorem burst_not_published (type : FrameType) (sn : Byte) {data data' : List Byte}
    (hdata : data.length = type.len.toNat) (hlen : data'.length = data.length)
    {before burst burst' after : List Bool} (hsent : bitsHigh data = before ++ burst ++ after)
    (hreceived : bitsHigh data' = before ++ burst' ++ after) (hburst : burst.length ≤ 16)
    (hne : data' ≠ data) (rest : List Byte) (s : State) :
    ∃ f : ReadFrame, readRound (encode type sn (crc16Table data) data' ++ rest) =
        some (.frame f, rest) ∧ f.data = data' ∧ (step num P s (.frame f)).2 = [] := by
  obtain ⟨f, hread, -, -, hf, hvalid⟩ :=
    readRound_encode type sn (crc16Table data) data' (hlen.trans hdata) rest
  refine ⟨f, hread, hf, ?_⟩
  have hinvalid : ¬ f.Valid := fun h => hne ?_
  · change (handleFrame num P s f).2 = []
    rw [(handleFrame_cases num P s f).2, if_neg hinvalid]
  · have hcrc := hvalid.mp h
    have hlength : burst.length = burst'.length := by
      have hbits : (bitsHigh data').length = (bitsHigh data).length := by simp [hlen]
      rw [hsent, hreceived] at hbits
      simp only [List.length_append] at hbits
      omega
    -- the CRC16 is the same behind both payloads
    have hmax : type.len.toNat ≤ 72 := by cases type <;> decide
    have hcode := crc16Table_eq_iff.mp (Eq.refl (crc16Table data))
    have hcode' := crc16Table_eq_iff.mp hcrc.symm
    rw [covered_eq (by omega), hsent, List.append_assoc _ after] at hcode
    rw [covered_eq (by omega), hreceived, List.append_assoc _ after] at hcode'
    have heq := Crc.Codeword.eq_of_burst (by decide) hcode hcode' hlength hburst
    exact bitsHigh_injective hlen (by rw [hsent, hreceived, heq])

/-- The first two bytes of a payload of zeros are replaced by ones. -/
theorem burst_not_published_sample :
    ∃ f : ReadFrame, readRound (encode .geodeticPos 0 (crc16Table (List.replicate 32 0))
        (0xff :: 0xff :: List.replicate 30 0) ++ []) = some (.frame f, []) ∧
      f.data = 0xff :: 0xff :: List.replicate 30 0 ∧
      (step Numerics.rat ⟨0, "imu"⟩ (State.initial zeroBuffers) (.frame f)).2 = [] :=
  burst_not_published Numerics.rat ⟨0, "imu"⟩ .geodeticPos 0
    (show (List.replicate 32 (0 : Byte)).length = FrameType.geodeticPos.len.toNat from rfl)
    (show (0xff :: 0xff :: List.replicate 30 (0 : Byte)).length = _ from rfl)
    (show bitsHigh (List.replicate 32 0) =
      [] ++ List.replicate 16 false ++ bitsHigh (List.replicate 30 0) by decide +kernel)
    (show bitsHigh (0xff :: 0xff :: List.replicate 30 0) =
      [] ++ List.replicate 16 true ++ bitsHigh (List.replicate 30 0) by decide +kernel)
    (by decide) (by decide +kernel) [] _

end Sent

end Ahrs
end WtbAutoware
