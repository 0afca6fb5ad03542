import WtbAutoware.Ahrs.Provenance

/-!
# Whether a frame survives what precedes it

A pass of `processLoop` drops the bytes it has read when a check fails, and the next pass
starts behind them. What one pass reads is a `Chunk`: a byte that is no head, a head and a
type that fit nothing, and so on, up to a whole frame. So a frame is found behind garbage
that is made of whole chunks (`readAll_chunks`).

It is not found behind anything else (`accepts_iff`). The pass that is open at the end of
the garbage takes its missing bytes from the frame, and the next one starts inside it. A
single head byte in front of a frame is enough: it makes the head of the frame the type.
-/

namespace WtbAutoware
namespace Ahrs

open Reactive

/-! ### What a pass reads -/

/-- The bytes of one pass. -/
inductive Chunk : List Byte → Prop where
  | noHead {b : Byte} : b ≠ frameHead → Chunk [b]
  | badType {type : Byte} : FrameType.ofCode type = none → ¬ IsGround type → type ≠ 0xff →
      Chunk [frameHead, type]
  | badLength {type : FrameType} {len : Byte} : len ≠ type.len →
      Chunk [frameHead, type.code, len]
  /-- A frame of a ground type. -/
  | ground {type len sn : Byte} {dropped : List Byte} : IsGround type →
      dropped.length = len.toNat + 4 → Chunk (frameHead :: type :: len :: sn :: dropped)
  /-- A header of type `0xff`. -/
  | ignored (len sn crc8 crc16H crc16L : Byte) :
      Chunk [frameHead, 0xff, len, sn, crc8, crc16H, crc16L]
  /-- A header whose CRC8 does not match. -/
  | badHeader {type : FrameType} {sn crc8 : Byte} (crc16H crc16L : Byte) :
      crc8Table [frameHead, type.code, type.len, sn] ≠ crc8 →
      Chunk [frameHead, type.code, type.len, sn, crc8, crc16H, crc16L]
  /-- A frame, whatever its CRC16 and its end. -/
  | frame {type : FrameType} {sn crc8 : Byte} (crc16H crc16L : Byte) {data : List Byte}
      (frameEnd : Byte) : crc8Table [frameHead, type.code, type.len, sn] = crc8 →
      data.length = type.len.toNat →
      Chunk (frameHead :: type.code :: type.len :: sn :: crc8 :: crc16H :: crc16L ::
        (data ++ [frameEnd]))

/-- Whole chunks, one behind the other. -/
inductive Chunks : List Byte → Prop where
  | nil : Chunks []
  | append {chunk bytes : List Byte} : Chunk chunk → Chunks bytes → Chunks (chunk ++ bytes)

/-- The bytes that a frame was read from. -/
def ReadFrame.OnWire (f : ReadFrame) (bytes : List Byte) : Prop :=
  f.header.headerStart = frameHead ∧ f.header.dataType = f.type.code ∧
    f.header.dataSize = f.type.len ∧ bytes = f.header.bytes ++ (f.data ++ [f.frameEnd])

theorem ofCode_eq_some {type : Byte} {t : FrameType} (h : FrameType.ofCode type = some t) :
    type = t.code := by
  unfold FrameType.ofCode at h
  split at h
  · next htype => rw [htype, ← Option.some.inj h]
  · split at h
    · next htype => rw [htype, ← Option.some.inj h]
    · split at h
      · next htype => rw [htype, ← Option.some.inj h]
      · split at h
        · next htype => rw [htype, ← Option.some.inj h]
        · exact nomatch h

theorem ofCode_of_isGround {type : Byte} (h : IsGround type) : FrameType.ofCode type = none := by
  rcases h with rfl | rfl <;> rfl

/-- A pass reads a chunk and leaves what is behind it. -/
theorem readRound_chunk {chunk : List Byte} (h : Chunk chunk) (rest : List Byte) :
    ∃ r, readRound (chunk ++ rest) = some (r, rest) := by
  cases h with
  | noHead hb => exact ⟨.skipped, by simp [readRound, hb]⟩
  | @badType type hcode hground hff =>
    have hff' : type ≠ 255#8 := hff
    exact ⟨.skipped, by simp [readRound, hcode, hground, hff']⟩
  | badLength hlen => exact ⟨.skipped, by simp [readRound, hlen]⟩
  | @ground type len sn dropped hground hdropped =>
    -- the bytes behind the serial number are dropped unread
    refine ⟨.ground sn, ?_⟩
    simp only [readRound, List.cons_append, ne_eq, not_true, if_false, ofCode_of_isGround hground,
      hground, false_and, and_false, if_true, readGround, List.length_append, hdropped]
    rw [if_neg (by omega), ← hdropped, List.drop_left]
  | ignored => exact ⟨.ignored, rfl⟩
  | @badHeader type sn crc8 crc16H crc16L hcrc =>
    refine ⟨.badHeader type ⟨frameHead, type.code, type.len, sn, crc8, crc16H, crc16L⟩, ?_⟩
    simp only [readRound, List.cons_append, List.nil_append, ne_eq, not_true, if_false,
      FrameType.ofCode_code, readFrame, reduceCtorEq, false_and]
    exact dif_neg hcrc
  | @frame type sn crc8 crc16H crc16L data frameEnd hcrc hdata =>
    -- the payload ends where the length of the type says
    have hdrop : (data ++ [frameEnd] ++ rest).drop type.len.toNat = frameEnd :: rest := by
      rw [List.append_assoc, ← hdata, List.drop_left]
      rfl
    have htake : (data ++ [frameEnd] ++ rest).take type.len.toNat = data := by
      rw [List.append_assoc, ← hdata, List.take_left]
    simp only [readRound, List.cons_append, ne_eq, not_true, if_false, FrameType.ofCode_code,
      readFrame, reduceCtorEq, false_and]
    refine ⟨.frame ⟨type, ⟨frameHead, type.code, type.len, sn, crc8, crc16H, crc16L⟩, data,
      frameEnd, hcrc, hdata⟩, (dif_pos hcrc).trans ?_⟩
    simp only [readData, hdrop, htake, dif_pos hdata]

theorem exists_chunk_of_readFrame {type : FrameType} {bytes rest : List Byte} {r : Round}
    (hr : readFrame type type.len bytes = some (r, rest)) :
    ∃ chunk, Chunk chunk ∧ frameHead :: type.code :: type.len :: bytes = chunk ++ rest ∧
      ∀ f, r = .frame f → f.OnWire chunk := by
  unfold readFrame at hr
  split at hr
  · next sn crc8 crc16H crc16L bytes =>
    dsimp only at hr
    split at hr
    · next hcrc =>
      -- the payload and the end byte
      unfold readData at hr
      dsimp only at hr
      split at hr
      · cases hr
      · next frameEnd rest' hdrop =>
        split at hr
        · next hlen =>
          obtain ⟨rfl, rfl⟩ := Prod.mk.inj (Option.some.inj hr)
          refine ⟨_, .frame crc16H crc16L frameEnd hcrc hlen, ?_, ?_⟩
          · simp only [List.cons_append, List.append_assoc, List.nil_append]
            rw [← hdrop, List.take_append_drop]
          · rintro f ⟨rfl⟩
            exact ⟨rfl, rfl, rfl, rfl⟩
        · cases hr
    · next hcrc =>
      obtain ⟨rfl, rfl⟩ := Prod.mk.inj (Option.some.inj hr)
      exact ⟨_, .badHeader crc16H crc16L hcrc, rfl, fun f hf => Round.noConfusion hf⟩
  · cases hr

theorem exists_chunk_of_readGround {type len : Byte} (htype : IsGround type)
    {bytes rest : List Byte} {r : Round} (hr : readGround len bytes = some (r, rest)) :
    ∃ chunk, Chunk chunk ∧ frameHead :: type :: len :: bytes = chunk ++ rest ∧
      ∀ f, r = .frame f → f.OnWire chunk := by
  unfold readGround at hr
  split at hr
  · exact nomatch hr
  · next sn bytes =>
    split at hr
    · exact nomatch hr
    · next hlen =>
      obtain ⟨rfl, rfl⟩ := Prod.mk.inj (Option.some.inj hr)
      -- the checksums, the payload and the end byte are skipped
      have htake : (bytes.take (len.toNat + 4)).length = len.toNat + 4 :=
        List.length_take_of_le (Nat.le_of_not_lt hlen)
      refine ⟨frameHead :: type :: len :: sn :: bytes.take (len.toNat + 4), .ground htype htake, ?_,
        fun f hf => nomatch hf⟩
      simp only [List.cons_append, List.take_append_drop]

theorem exists_chunk_of_readIgnored (len : Byte) {bytes rest : List Byte} {r : Round}
    (hr : readIgnored bytes = some (r, rest)) :
    ∃ chunk, Chunk chunk ∧ frameHead :: 0xff :: len :: bytes = chunk ++ rest ∧
      ∀ f, r = .frame f → f.OnWire chunk := by
  unfold readIgnored at hr
  split at hr
  · obtain ⟨rfl, rfl⟩ := Prod.mk.inj (Option.some.inj hr)
    exact ⟨_, .ignored _ _ _ _ _, rfl, fun f hf => Round.noConfusion hf⟩
  · cases hr

/-- What a pass has read is a chunk. -/
theorem exists_chunk {bytes rest : List Byte} {r : Round}
    (hr : readRound bytes = some (r, rest)) :
    ∃ chunk, Chunk chunk ∧ bytes = chunk ++ rest ∧ ∀ f, r = .frame f → f.OnWire chunk := by
  unfold readRound at hr
  split at hr
  · exact nomatch hr
  · next head bytes =>
    split at hr
    · next hhead =>
      obtain ⟨rfl, rfl⟩ := Prod.mk.inj (Option.some.inj hr)
      exact ⟨_, .noHead hhead, rfl, fun f hf => nomatch hf⟩
    · next hhead =>
      obtain rfl := not_not.mp hhead
      split at hr
      · exact nomatch hr
      · next type bytes =>
        split at hr
        · next hbad =>
          obtain ⟨rfl, rfl⟩ := Prod.mk.inj (Option.some.inj hr)
          exact ⟨_, .badType hbad.1 hbad.2.1 hbad.2.2, rfl, fun f hf => nomatch hf⟩
        · next hgood =>
          split at hr
          · exact nomatch hr
          · next len bytes =>
            split at hr
            · next t hcode =>
              obtain rfl := ofCode_eq_some hcode
              split at hr
              · next hlen =>
                obtain ⟨rfl, rfl⟩ := Prod.mk.inj (Option.some.inj hr)
                exact ⟨_, .badLength hlen, rfl, fun f hf => nomatch hf⟩
              · next hlen =>
                obtain rfl := not_not.mp hlen
                exact exists_chunk_of_readFrame hr
            · next hcode =>
              split at hr
              · next hground => exact exists_chunk_of_readGround hground hr
              · next hground =>
                -- the only type that is left
                have hff : type = 0xff := by
                  by_contra hff
                  exact hgood ⟨hcode, hground, hff⟩
                subst hff
                exact exists_chunk_of_readIgnored len hr

/-! ### Runs -/

/-- Whole chunks are rounds of their own. -/
theorem readAll_chunks {bytes : List Byte} (h : Chunks bytes) (rest : List Byte) :
    ∃ rs, readAll (bytes ++ rest) = rs ++ readAll rest := by
  induction h with
  | nil => exact ⟨[], rfl⟩
  | @append chunk bytes hchunk _ ih =>
    obtain ⟨r, hr⟩ := readRound_chunk hchunk (bytes ++ rest)
    obtain ⟨rs, hrs⟩ := ih
    refine ⟨r :: rs, ?_⟩
    rw [List.append_assoc, readAll_of_readRound hr, hrs, List.cons_append]

/-- In front of a frame that is read there are whole chunks. -/
theorem exists_chunks_of_mem {bytes : List Byte} {f : ReadFrame}
    (h : Round.frame f ∈ readAll bytes) :
    ∃ pre frame post, Chunks pre ∧ f.OnWire frame ∧ bytes = pre ++ (frame ++ post) := by
  induction hlen : bytes.length using Nat.strong_induction_on generalizing bytes with
  | _ n ih =>
    cases hr : readRound bytes with
    | none =>
      have hnil : readAll bytes = [] := by
        unfold readAll
        cases bytes with
        | nil => rfl
        | cons b bytes => rw [List.length_cons, rounds, hr]
      rw [hnil] at h
      exact absurd h List.not_mem_nil
    | some p =>
      obtain ⟨r, rest⟩ := p
      obtain ⟨chunk, hchunk, hbytes, hwire⟩ := exists_chunk hr
      rw [readAll_of_readRound hr] at h
      rcases List.mem_cons.mp h with heq | hmem
      · -- the frame is the chunk that this pass reads
        exact ⟨[], chunk, rest, .nil, hwire f heq.symm, hbytes⟩
      · -- a later pass reads it, and the chunk goes in front
        obtain ⟨pre, frame, post, hpre, hframe, hrest⟩ :=
          ih rest.length (hlen ▸ length_readRound hr) hmem rfl
        refine ⟨chunk ++ pre, frame, post, .append hchunk hpre, hframe, ?_⟩
        rw [hbytes, hrest, List.append_assoc]

/-! ### The law -/

/-- A frame with the right length, CRC8, CRC16 and end byte. -/
def IsValidFrame (bytes : List Byte) : Prop :=
  ∃ (type : FrameType) (sn : Byte) (data : List Byte), data.length = type.len.toNat ∧
    bytes = encode type sn (crc16Table data) data

/-- A CRC16 is its two bytes. -/
theorem setWidth_crc16 (h : Header) :
    (h.crc16 >>> 8).setWidth 8 = h.headerCrc16H ∧ h.crc16.setWidth 8 = h.headerCrc16L := by
  have hH := h.headerCrc16H.isLt
  have hL := h.headerCrc16L.isLt
  refine ⟨?_, ?_⟩
  · apply BitVec.eq_of_toNat_eq
    simp only [Header.crc16, BitVec.toNat_add, BitVec.toNat_setWidth, BitVec.toNat_shiftLeft,
      BitVec.toNat_ushiftRight, Nat.shiftRight_eq_div_pow, Nat.shiftLeft_eq]
    omega
  · apply BitVec.eq_of_toNat_eq
    simp only [Header.crc16, BitVec.toNat_add, BitVec.toNat_setWidth, BitVec.toNat_shiftLeft,
      Nat.shiftLeft_eq]
    omega

theorem IsValidFrame.of_onWire {f : ReadFrame} {bytes : List Byte} (hwire : f.OnWire bytes)
    (hvalid : f.Valid) : IsValidFrame bytes := by
  obtain ⟨hstart, htype, hsize, rfl⟩ := hwire
  obtain ⟨hcrc16, hend⟩ := hvalid
  refine ⟨f.type, f.header.serialNum, f.data, f.length_data, ?_⟩
  have hcrc8 := f.header_crc8
  unfold Header.crc8 at hcrc8
  rw [hstart, htype, hsize] at hcrc8
  -- the checksums of the header are the right ones, byte by byte
  obtain ⟨hH, hL⟩ := setWidth_crc16 f.header
  rw [hcrc16] at hH hL
  unfold encode Header.bytes encodeHeader
  rw [hstart, htype, hsize, ← hcrc8, ← hH, ← hL, hend]

/-- No valid frame starts in the garbage. -/
def OnlyFrame (garbage frame : List Byte) : Prop :=
  ∀ pre other post, garbage ++ frame = pre ++ (other ++ post) → IsValidFrame other → pre = garbage

section Law

variable {F : Type} (num : Numerics F) (P : Params) (buffers : FrameType → FrameBuffer)

/-- Over these bytes, the driver gets to publishing a frame with this type and payload. -/
def Accepts (bytes : List Byte) (type : FrameType) (data : List Byte) : Prop :=
  ∃ pre f post, readAll bytes = pre ++ .frame f :: post ∧ f.type = type ∧ f.data = data ∧
    (processLoop num P buffers).out ((processLoop num P buffers).run pre) (.frame f) ≠ []

theorem publish_ne_nil (frames : FrameType → FrameBuffer) (type : FrameType) :
    publish num P frames type ≠ [] := by
  cases type <;> exact List.cons_ne_nil _ _

/-- A frame is published if it is valid, whatever came before it. -/
theorem out_ne_nil_iff (s : State) (f : ReadFrame) :
    (processLoop num P buffers).out s (.frame f) ≠ [] ↔ f.Valid := by
  change (handleFrame num P s f).2 ≠ [] ↔ f.Valid
  rw [(handleFrame_cases num P s f).2]
  by_cases hvalid : f.Valid
  · rw [if_pos hvalid]
    exact iff_of_true (publish_ne_nil num P _ _) hvalid
  · rw [if_neg hvalid]
    exact iff_of_false (fun h => h rfl) hvalid

/-- **When a frame survives.** Behind garbage that holds no valid frame, nor the start of
one, a valid frame is accepted if and only if the garbage is made of whole chunks. -/
theorem accepts_iff (type : FrameType) (sn : Byte) {data : List Byte}
    (hdata : data.length = type.len.toNat) {garbage : List Byte}
    (honly : OnlyFrame garbage (encode type sn (crc16Table data) data)) :
    Accepts num P buffers (garbage ++ encode type sn (crc16Table data) data) type data ↔
      Chunks garbage := by
  refine ⟨?_, ?_⟩
  · rintro ⟨rs, f, rs', hrounds, -, -, hout⟩
    have hvalid := (out_ne_nil_iff num P buffers _ f).mp hout
    have hmem : Round.frame f ∈ readAll (garbage ++ encode type sn (crc16Table data) data) := by
      rw [hrounds]
      exact List.mem_append_right rs List.mem_cons_self
    -- the frame that is read is the only one there is
    obtain ⟨pre, frame, post, hpre, hwire, hbytes⟩ := exists_chunks_of_mem hmem
    rwa [honly pre frame post hbytes (.of_onWire hwire hvalid)] at hpre
  · intro hchunks
    obtain ⟨f, hread, htype, -, hf, hvalid⟩ :=
      readRound_encode type sn (crc16Table data) data hdata []
    rw [List.append_nil] at hread
    obtain ⟨rs, hrs⟩ := readAll_chunks hchunks (encode type sn (crc16Table data) data)
    refine ⟨rs, f, [], ?_, htype, hf, ?_⟩
    · rw [hrs, readAll_of_readRound hread, readAll_nil]
    · exact (out_ne_nil_iff num P buffers _ f).mpr (hvalid.mpr rfl)

/-- A geodetic frame at the origin. -/
def originFrame : List Byte :=
  encode .geodeticPos 0 (crc16Table (List.replicate 32 0)) (List.replicate 32 0)

/-- A single byte in front of it is not the start of a valid frame. -/
theorem onlyFrame_origin (b : Byte) : OnlyFrame [b] originFrame := by
  rintro pre other post hbytes ⟨type, sn, data, hdata, rfl⟩
  have hlong : 32 ≤ data.length := by
    rw [hdata]
    cases type <;> decide
  have hlength := congrArg List.length hbytes
  have horigin : originFrame.length = 40 := rfl
  simp only [encode, Header.bytes, List.length_append, List.length_cons, List.length_nil,
    horigin] at hlength
  cases pre with
  | nil =>
    -- the type would be the head of the frame
    have htype : frameHead = type.code := (List.cons.inj (List.cons.inj hbytes).2).1
    cases type <;> exact absurd htype (by decide)
  | cons a pre =>
    rw [List.length_cons] at hlength
    have hnil : pre = [] := List.eq_nil_of_length_eq_zero (by omega)
    rw [hnil, (List.cons.inj hbytes).1]

theorem accepts_iff_noise :
    Accepts Numerics.rat ⟨0, "imu"⟩ zeroBuffers ([0x00] ++ originFrame) .geodeticPos
        (List.replicate 32 0) ↔ Chunks [0x00] :=
  accepts_iff Numerics.rat ⟨0, "imu"⟩ zeroBuffers .geodeticPos 0 (by decide) (onlyFrame_origin 0x00)

/-- A head byte in front of it takes its head for a type, and none of its bytes is left that
could be a head. -/
theorem head_hides_frame :
    OnlyFrame [frameHead] originFrame ∧
      ¬ Accepts Numerics.rat ⟨0, "imu"⟩ zeroBuffers ([frameHead] ++ originFrame) .geodeticPos
        (List.replicate 32 0) := by
  refine ⟨onlyFrame_origin frameHead, ?_⟩
  rintro ⟨pre, f, post, hrounds, -⟩
  have hskipped : readRound ([frameHead] ++ originFrame) = some (.skipped, originFrame.tail) := rfl
  have hmem : Round.frame f ∈ Round.skipped :: readAll originFrame.tail := by
    rw [← readAll_of_readRound hskipped, hrounds]
    exact List.mem_append_right pre List.mem_cons_self
  -- there is no head in what is left
  have htail : Round.frame f ∈ readAll originFrame.tail :=
    (List.mem_cons.mp hmem).resolve_left fun h => nomatch h
  obtain ⟨front, frame, back, -, ⟨hstart, -, -, rfl⟩, hbytes⟩ := exists_chunks_of_mem htail
  have hhead : frameHead ∈ originFrame.tail := by
    rw [hbytes, ← hstart]
    exact List.mem_append_right front (List.mem_append_left back List.mem_cons_self)
  exact absurd hhead (by decide +kernel)

end Law

end Ahrs
end WtbAutoware
