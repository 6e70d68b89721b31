import MpmtTestStand.Ports.Decoders
import MpmtTestStand.Verified.LittleEndian
import MpmtTestStand.Verified.Words

/-!
# The payload conversions as written

The conversions of `TestStandComm.h` work on words in the memory of a little-endian
machine, with shifts of signed words, and byte by byte for doubles; the encoders and the
decoders copy packed structs from and to that memory.  `Memory` has them in this form.
They are the conversions to and from big-endian numerals that the rest of the model
uses, so that each decoder undoes its encoder (`codecs_agree`).
-/

namespace MpmtTestStand.Ports

open MpmtTestStand.Verified MpmtTestStand.Verified.Words

namespace Memory

/-! ## Words and doubles in memory -/

/-- The memory of a `uint32_t`. -/
def bytes32 (w : UInt32) : List UInt8 := LittleEndian.encode 4 w.toNat

/-- The `uint32_t` in these four bytes. -/
def load32 (bytes : List UInt8) : UInt32 := UInt32.ofNat (LittleEndian.decode bytes)

/-- The memory of a `double`. -/
def bytes64 (w : UInt64) : List UInt8 := LittleEndian.encode 8 w.toNat

/-- The `double` in these eight bytes. -/
def load64 (bytes : List UInt8) : UInt64 := UInt64.ofNat (LittleEndian.decode bytes)

/-- `(val >> shift) & 0xFF`, stored into a `uint8_t`. -/
def byteAt (val shift : Int32) : UInt8 := ((val >>> shift) &&& 0xFF).toUInt32.toUInt8

/-- `htonl` -/
def htonl (val : Int32) : Int32 :=
  (load32 [byteAt val 24, byteAt val 16, byteAt val 8, byteAt val 0]).toInt32

/-- `ptr[i]`, promoted to `int`. -/
def promoted (ptr : List UInt8) (i : Nat) : Int32 := (ptr.getD i 0).toUInt32.toInt32

/-- `ntohl` -/
def ntohl (val : Int32) : Int32 :=
  let ptr := bytes32 val.toUInt32
  promoted ptr 0 <<< 24 ||| promoted ptr 1 <<< 16 ||| promoted ptr 2 <<< 8 |||
    promoted ptr 3 <<< 0

/-- The loop of `reverse`. -/
def reverseLoop (ptrVal ptrOut : List UInt8) : List UInt8 :=
  (List.range 8).foldl (fun ptrOut i => ptrOut.set i (ptrVal.getD (8 - i - 1) 0)) ptrOut

/-- `reverse`; what `out` holds before the loop does not matter (`reverseLoop_eq`). -/
def reverse (val : UInt64) : UInt64 := load64 (reverseLoop (bytes64 val) (bytes64 0))

/-- `ntohd` on a little-endian machine. -/
def ntohd (val : UInt64) : UInt64 := reverse val

/-- `htond` on a little-endian machine. -/
def htond (val : UInt64) : UInt64 := reverse val

@[simp] theorem bytes64_length (w : UInt64) : (bytes64 w).length = 8 :=
  LittleEndian.encode_length ..

theorem bytes32_load32 {bytes : List UInt8} (h : bytes.length = 4) :
    bytes32 (load32 bytes) = bytes := by
  have hlt := LittleEndian.decode_lt bytes
  have hencode := LittleEndian.encode_decode bytes
  rw [h] at hlt hencode
  rw [bytes32, load32, UInt32.toNat_ofNat_of_lt' hlt, hencode]

theorem bytes64_load64 {bytes : List UInt8} (h : bytes.length = 8) :
    bytes64 (load64 bytes) = bytes := by
  have hlt := LittleEndian.decode_lt bytes
  have hencode := LittleEndian.encode_decode bytes
  rw [h] at hlt hencode
  rw [bytes64, load64, UInt64.toNat_ofNat_of_lt' hlt, hencode]

/-! ## `htonl` and `ntohl` -/

/-- Shifting a signed word drags its sign along, but not into the byte that is kept. -/
theorem setWidth_sshiftRight (x : BitVec 32) {k : Nat} (hk : k ≤ 24) :
    ((x.sshiftRight k) &&& 255#32).setWidth 8 = (x >>> k).setWidth 8 := by
  ext i hi
  have hmask : (255#32).getLsbD i = true := by
    interval_cases i <;> rfl
  have hlt : k + i < 32 := by omega
  rw [BitVec.getElem_setWidth, BitVec.getElem_setWidth, BitVec.getLsbD_and, hmask,
    Bool.and_true, BitVec.getLsbD_sshiftRight, BitVec.getLsbD_ushiftRight]
  simp [hlt]
  omega

theorem byte_of_sshiftRight (x : BitVec 32) {k : Nat} (hk : k ≤ 24) :
    UInt8.ofBitVec (((x.sshiftRight k) &&& 255#32).setWidth 8) = UInt8.ofNat (x.toNat / 2 ^ k) := by
  apply UInt8.toNat_inj.mp
  show (((x.sshiftRight k) &&& 255#32).setWidth 8).toNat = _
  rw [setWidth_sshiftRight x hk, BitVec.toNat_setWidth, BitVec.toNat_ushiftRight,
    Nat.shiftRight_eq_div_pow, UInt8.toNat_ofNat']

/-- The four stores of `htonl` write the bytes of the big-endian numeral. -/
theorem byteAt_eq (v : UInt32) :
    [byteAt v.toInt32 24, byteAt v.toInt32 16, byteAt v.toInt32 8, byteAt v.toInt32 0] =
      BigEndian.encode 4 v.toNat := by
  have h24 : byteAt v.toInt32 24 = UInt8.ofNat (v.toNat / 2 ^ 24) :=
    byte_of_sshiftRight v.toBitVec (by decide)
  have h16 : byteAt v.toInt32 16 = UInt8.ofNat (v.toNat / 2 ^ 16) :=
    byte_of_sshiftRight v.toBitVec (by decide)
  have h8 : byteAt v.toInt32 8 = UInt8.ofNat (v.toNat / 2 ^ 8) :=
    byte_of_sshiftRight v.toBitVec (by decide)
  have h0 : byteAt v.toInt32 0 = UInt8.ofNat (v.toNat / 2 ^ 0) :=
    byte_of_sshiftRight v.toBitVec (by decide)
  rw [h24, h16, h8, h0]
  simp [BigEndian.encode, Nat.div_div_eq_div_mul]

/-- **The memory of `htonl(v)`.** -/
theorem bytes32_htonl (v : UInt32) : bytes32 (htonl v.toInt32).toUInt32 = Ports.htonl v := by
  have hword : (htonl v.toInt32).toUInt32 =
      load32 [byteAt v.toInt32 24, byteAt v.toInt32 16, byteAt v.toInt32 8, byteAt v.toInt32 0] :=
    rfl
  rw [hword, bytes32_load32 rfl, byteAt_eq]
  rfl

/-- Numbers without a common bit. -/
theorem or_eq_add {x y : Nat} (k : Nat) (hx : 2 ^ k ∣ x) (hy : y < 2 ^ k) : x ||| y = x + y := by
  obtain ⟨q, rfl⟩ := hx
  rw [Nat.mul_comm, ← Nat.shiftLeft_eq, Nat.shiftLeft_add_eq_or_of_lt hy]

theorem byte_shiftLeft (x : UInt8) (k : UInt32) (hk : k.toNat ≤ 24) :
    (x.toUInt32 <<< k).toNat = x.toNat * 2 ^ k.toNat := by
  have hx := x.toNat_lt
  have hmod : k.toNat % 32 = k.toNat := Nat.mod_eq_of_lt (by omega)
  have hpow : 2 ^ k.toNat ≤ 2 ^ 24 := Nat.pow_le_pow_right (by decide) hk
  have hlt : x.toNat * 2 ^ k.toNat < 2 ^ 32 :=
    calc x.toNat * 2 ^ k.toNat ≤ 255 * 2 ^ 24 := Nat.mul_le_mul (by omega) hpow
      _ < 2 ^ 32 := by decide
  rw [UInt32.toNat_shiftLeft, UInt8.toNat_toUInt32, hmod, Nat.shiftLeft_eq, Nat.mod_eq_of_lt hlt]

/-- Four bytes put together with shifts. -/
theorem shifted_or (a b c d : UInt8) :
    ((a.toUInt32 <<< 24) ||| (b.toUInt32 <<< 16) ||| (c.toUInt32 <<< 8) |||
      (d.toUInt32 <<< 0)).toNat = BigEndian.decode [a, b, c, d] := by
  have hb := b.toNat_lt
  have hc := c.toNat_lt
  have hd := d.toNat_lt
  have hdecode : BigEndian.decode [a, b, c, d] =
    256 * (256 * (256 * (256 * 0 + a.toNat) + b.toNat) + c.toNat) + d.toNat := rfl
  rw [UInt32.toNat_or, UInt32.toNat_or, UInt32.toNat_or, byte_shiftLeft a 24 (by decide),
    byte_shiftLeft b 16 (by decide), byte_shiftLeft c 8 (by decide),
    byte_shiftLeft d 0 (by decide), hdecode]
  show ((a.toNat * 2 ^ 24 ||| b.toNat * 2 ^ 16) ||| c.toNat * 2 ^ 8) ||| d.toNat * 2 ^ 0 = _
  have hab : a.toNat * 2 ^ 24 ||| b.toNat * 2 ^ 16 = a.toNat * 2 ^ 24 + b.toNat * 2 ^ 16 :=
    or_eq_add 24 (by omega) (by omega)
  have habc : a.toNat * 2 ^ 24 + b.toNat * 2 ^ 16 ||| c.toNat * 2 ^ 8 =
      a.toNat * 2 ^ 24 + b.toNat * 2 ^ 16 + c.toNat * 2 ^ 8 :=
    or_eq_add 16 (by omega) (by omega)
  rw [hab, habc, or_eq_add 8 (by omega) (by omega)]
  omega

/-- **`ntohl` of a word that has been copied from a buffer.** -/
theorem ntohl_load32 {bytes : List UInt8} (h : bytes.length = 4) :
    (ntohl (load32 bytes).toInt32).toUInt32 = Ports.ntohl bytes := by
  have hptr : bytes32 (load32 bytes).toInt32.toUInt32 = bytes := bytes32_load32 h
  obtain ⟨a, b, c, d, rfl⟩ : ∃ a b c d, bytes = [a, b, c, d] := by
    match bytes, h with
    | [a, b, c, d], _ => exact ⟨a, b, c, d, rfl⟩
  unfold ntohl
  rw [hptr]
  apply UInt32.toNat_inj.mp
  have hlt : BigEndian.decode [a, b, c, d] < 2 ^ 32 := by
    rw [← shifted_or]
    exact UInt32.toNat_lt _
  rw [Ports.ntohl, UInt32.toNat_ofNat_of_lt' hlt, ← shifted_or]
  rfl

/-! ## `ntohd` and `htond` -/

/-- A loop that stores every element. -/
theorem foldl_set {α : Type*} (f : Nat → α) (out : List α) {k : Nat} (hk : k ≤ out.length) :
    (List.range k).foldl (fun out i => out.set i (f i)) out =
      (List.range k).map f ++ out.drop k := by
  induction k with
  | zero => rfl
  | succ k ih =>
      have hdrop : out.drop k = out[k] :: out.drop (k + 1) := List.drop_eq_getElem_cons hk
      rw [List.range_succ, List.foldl_append, ih (by omega), List.map_append, List.append_assoc]
      simp only [List.foldl_cons, List.foldl_nil, List.set_append, List.length_map,
        List.length_range, Nat.lt_irrefl, if_false, Nat.sub_self, hdrop]
      rfl

/-- **The loop reverses the bytes**, whatever is overwritten. -/
theorem reverseLoop_eq {ptrVal ptrOut : List UInt8} (hval : ptrVal.length = 8)
    (hout : ptrOut.length = 8) : reverseLoop ptrVal ptrOut = ptrVal.reverse := by
  rw [reverseLoop, foldl_set _ _ hout.ge, List.drop_of_length_le hout.le, List.append_nil]
  match ptrVal, hval with
  | [_, _, _, _, _, _, _, _], _ => rfl

theorem bytes64_reverse (val : UInt64) : bytes64 (reverse val) = (bytes64 val).reverse := by
  have hloop : reverseLoop (bytes64 val) (bytes64 0) = (bytes64 val).reverse :=
    reverseLoop_eq (bytes64_length val) (bytes64_length 0)
  rw [reverse, hloop, bytes64_load64]
  rw [List.length_reverse, bytes64_length]

/-- **The memory of `htond(v)`.** -/
theorem bytes64_htond (v : UInt64) : bytes64 (htond v) = Ports.htond v := by
  rw [htond, bytes64_reverse, bytes64, LittleEndian.encode_eq_reverse, List.reverse_reverse]
  rfl

/-- **`ntohd` of a double that has been copied from a buffer.** -/
theorem ntohd_load64 {bytes : List UInt8} (h : bytes.length = 8) :
    ntohd (load64 bytes) = Ports.ntohd bytes := by
  have hloop : reverseLoop bytes (bytes64 0) = bytes.reverse :=
    reverseLoop_eq h (bytes64_length 0)
  rw [ntohd, reverse, bytes64_load64 h, hloop, load64, LittleEndian.decode_eq_reverse,
    List.reverse_reverse]
  rfl

/-! ## Encoders and decoders -/

/-- `memcpy(&dst[at], src, sizeof(src))` -/
def memcpy (dst : List UInt8) (offset : Nat) (src : List UInt8) : List UInt8 :=
  dst.take offset ++ src ++ dst.drop (offset + src.length)

/-- `EXTRACT` into a `uint32_t`, and the conversion of a word of a copied struct. -/
def extract32 (src : List UInt8) : UInt32 := (ntohl (load32 (src.take 4)).toInt32).toUInt32

/-- `EXTRACT` into a `double`. -/
def extract64 (src : List UInt8) : UInt64 := ntohd (load64 (src.take 8))

/-- The `MoveMsgData` of `TestStandCommHost::move`. -/
def movePayload (axis : AxisId) (dir : AxisDirection) (velHold distCounts : UInt32) :
    List UInt8 :=
  bytes32 (htonl velHold.toInt32).toUInt32 ++ bytes32 (htonl distCounts.toInt32).toUInt32 ++
    [axis.toByte, dir.toByte]

/-- The `PositionMsgData` of `TestStandCommController::position`. -/
def positionPayload (xCounts yCounts : Int32) : List UInt8 :=
  bytes32 (htonl xCounts).toUInt32 ++ bytes32 (htonl yCounts).toUInt32

/-- The bytes of `value_conv` in `TestStandCommHost::calibrate`; `value` is the 64-bit word
that the pointer points to, of which a `uint32_t` is the low half. -/
def valueConv (key : CalibrationKey) (value : UInt64) : List UInt8 :=
  match key with
  | .gantryAccel => bytes32 (htonl value.toUInt32.toInt32).toUInt32
  | .gantryVelStart => bytes32 (htonl value.toUInt32.toInt32).toUInt32
  | .gantryVelHome => bytes32 (htonl value.toUInt32.toInt32).toUInt32
  | .tempAllC1 => bytes64 (htond value)
  | .tempAllC2 => bytes64 (htond value)
  | .tempAllC3 => bytes64 (htond value)
  | .tempAllResistor => bytes64 (htond value)

/-- The payload of `TestStandCommHost::calibrate`: the first `value_size + 1` bytes of
`send_buf`, with the key and the converted value written to it. -/
def calibratePayload (sendBuf : List UInt8) (key : CalibrationKey) (value : UInt64) :
    List UInt8 :=
  (memcpy (sendBuf.set 0 key.toByte) 1 (valueConv key value)).take
    ((valueConv key value).length + 1)

/-- `TestStandCommController::recv_move` -/
def recvMove (msg : ReceivedMessage) : Option MoveMsgData :=
  if msg.length ≠ MoveMsgData.size then none
  else
    let data := msg.data.toList
    some
      { velHold := extract32 data
        distCounts := extract32 (data.drop 4)
        axis := data.getD 8 0
        dir := data.getD 9 0 }

/-- What `TestStandCommHost::get_position` makes of the received message. -/
def getPosition (msg : ReceivedMessage) : PositionMsgData where
  xCounts := (extract32 msg.data.toList).toInt32
  yCounts := (extract32 (msg.data.toList.drop 4)).toInt32

/-- `TestStandCommController::recv_calibrate` -/
def recvCalibrate (msg : ReceivedMessage) (cal : Calibration) : Option Calibration :=
  if msg.length < 1 then none
  else
    let data := msg.data.toList
    match data.getD 0 0 with
    | 0 => some { cal with accel := extract32 (data.drop 1) }
    | 1 => some { cal with velStart := extract32 (data.drop 1) }
    | 2 => some { cal with velHome := extract32 (data.drop 1) }
    | 3 => some { cal with c1 := extract64 (data.drop 1) }
    | 4 => some { cal with c2 := extract64 (data.drop 1) }
    | 5 => some { cal with c3 := extract64 (data.drop 1) }
    | 6 => some { cal with resistor := extract64 (data.drop 1) }
    | _ => none

/-! ## They are those of the model -/

theorem extract32_eq {src : List UInt8} (h : 4 ≤ src.length) :
    extract32 src = Ports.ntohl (src.take 4) :=
  ntohl_load32 (List.length_take_of_le h)

theorem extract64_eq {src : List UInt8} (h : 8 ≤ src.length) :
    extract64 src = Ports.ntohd (src.take 8) :=
  ntohd_load64 (List.length_take_of_le h)

theorem movePayload_eq (axis : AxisId) (dir : AxisDirection) (velHold distCounts : UInt32) :
    movePayload axis dir velHold distCounts =
      (TestStandCommHost.movePacket axis dir velHold distCounts).payload := by
  rw [movePayload, bytes32_htonl, bytes32_htonl]
  rfl

theorem positionPayload_eq (xCounts yCounts : Int32) :
    positionPayload xCounts yCounts =
      (TestStandCommController.positionPacket ⟨xCounts, yCounts⟩).payload := by
  have hx := bytes32_htonl xCounts.toUInt32
  have hy := bytes32_htonl yCounts.toUInt32
  rw [Int32.toInt32_toUInt32] at hx hy
  rw [positionPayload, hx, hy]
  rfl

theorem valueConv_eq (key : CalibrationKey) (value : UInt64) :
    valueConv key value = key.valueBytes value := by
  cases key with
  | gantryAccel | gantryVelStart | gantryVelHome => exact bytes32_htonl value.toUInt32
  | tempAllC1 | tempAllC2 | tempAllC3 | tempAllResistor => exact bytes64_htond value

theorem calibratePayload_eq (sendBuf : Vector UInt8 msgDataLengthMax) (key : CalibrationKey)
    (value : UInt64) :
    calibratePayload sendBuf.toList key value =
      (TestStandCommHost.calibratePacket key value).payload := by
  have hlength : sendBuf.toList.length = msgDataLengthMax := Vector.length_toList
  rw [calibratePayload, valueConv_eq]
  generalize sendBuf.toList = buf at hlength
  cases buf with
  | nil => cases hlength
  | cons b rest =>
      show (key.toByte :: ([] ++ key.valueBytes value ++ _)).take _ = _
      rw [List.take_succ_cons, List.nil_append, List.take_left' rfl]
      rfl

theorem recvMove_eq (msg : ReceivedMessage) :
    recvMove msg = TestStandCommController.recvMove msg := by
  have hlength : msg.data.toList.length = msgDataLengthMax := Vector.length_toList
  have hvel : 4 ≤ msg.data.toList.length := by
    rw [hlength]
    decide
  have hdist : 4 ≤ (msg.data.toList.drop 4).length := by
    rw [List.length_drop, hlength]
    decide
  rw [recvMove, TestStandCommController.recvMove]
  dsimp only
  rw [extract32_eq hvel, extract32_eq hdist]
  rfl

theorem getPosition_eq (msg : ReceivedMessage) :
    getPosition msg = .ofBytes msg.data.toList := by
  have hlength : msg.data.toList.length = msgDataLengthMax := Vector.length_toList
  have hx : 4 ≤ msg.data.toList.length := by
    rw [hlength]
    decide
  have hy : 4 ≤ (msg.data.toList.drop 4).length := by
    rw [List.length_drop, hlength]
    decide
  rw [getPosition, extract32_eq hx, extract32_eq hy]
  rfl

theorem recvCalibrate_eq (msg : ReceivedMessage) (cal : Calibration) :
    recvCalibrate msg cal = TestStandCommController.recvCalibrate msg cal := by
  have hlength : msg.data.toList.length = msgDataLengthMax := Vector.length_toList
  have hword : 4 ≤ (msg.data.toList.drop 1).length := by
    rw [List.length_drop, hlength]
    decide
  have hdouble : 8 ≤ (msg.data.toList.drop 1).length := by
    rw [List.length_drop, hlength]
    decide
  have h32 := extract32_eq hword
  have h64 := extract64_eq hdouble
  unfold recvCalibrate TestStandCommController.recvCalibrate Calibration.extract
  by_cases hshort : msg.length < 1
  · exact (if_pos hshort).trans (if_pos hshort).symm
  · refine (if_neg hshort).trans (Eq.trans ?_ (if_neg hshort).symm)
    dsimp only
    generalize extract32 (msg.data.toList.drop 1) = word at h32 ⊢
    generalize extract64 (msg.data.toList.drop 1) = double at h64 ⊢
    subst h32 h64
    generalize msg.data.toList.getD 0 0 = key
    split
    -- behind the known keys, nothing is stored
    case h_8 => simp [*]
    all_goals rfl

end Memory

/-! ## Moving an axis -/

/-- `get_direction` -/
def getDirection (displacement : Int32) : AxisDirection :=
  if displacement < 0 then .negative else .positive

/-- `abs` -/
def abs32 (x : Int32) : Int32 := if x < 0 then -x else x

/-- The direction and the distance that `move_axis` passes on for a target. -/
def moveAxisArgs (targetCounts curPosCounts : Int32) : AxisDirection × UInt32 :=
  let dispCounts := targetCounts - curPosCounts
  (getDirection dispCounts, (abs32 dispCounts).toUInt32)

/-- The sign of a direction. -/
def AxisDirection.sign : AxisDirection → Int
  | .positive => 1
  | .negative => -1
  | .other _ => 0

/-- The field that a key names. -/
def Calibration.set (cal : Calibration) (key : CalibrationKey) (value : UInt64) : Calibration :=
  match key with
  | .gantryAccel => { cal with accel := value.toUInt32 }
  | .gantryVelStart => { cal with velStart := value.toUInt32 }
  | .gantryVelHome => { cal with velHome := value.toUInt32 }
  | .tempAllC1 => { cal with c1 := value }
  | .tempAllC2 => { cal with c2 := value }
  | .tempAllC3 => { cal with c3 := value }
  | .tempAllResistor => { cal with resistor := value }

/-- A displacement that fits is split into its sign and its size. -/
theorem moveAxisArgs_sum {target cur : Int32} (hlo : -2 ^ 31 < target.toInt - cur.toInt)
    (hhi : target.toInt - cur.toInt < 2 ^ 31) :
    cur.toInt + (moveAxisArgs target cur).1.sign * (moveAxisArgs target cur).2.toNat =
      target.toInt := by
  have hdisp : (target - cur).toInt = target.toInt - cur.toInt := by
    rw [Int32.toInt_sub, Int.bmod_eq_of_le (by omega) (by omega)]
  simp only [moveAxisArgs, getDirection, abs32]
  generalize target - cur = disp at hdisp ⊢
  by_cases hneg : disp < 0
  · have hlt : disp.toInt < 0 := Int32.lt_iff_toInt_lt.mp hneg
    have hopp : (-disp).toInt = -disp.toInt := by
      rw [Int32.toInt_neg, Int.bmod_eq_of_le (by omega) (by omega)]
    have hsize := toUInt32_toNat (x := -disp) (by omega)
    rw [if_pos hneg, if_pos hneg, hsize, AxisDirection.sign]
    omega
  · have hge : 0 ≤ disp.toInt := Int32.le_iff_toInt_le.mp (Int32.not_lt.mp hneg)
    rw [if_neg hneg, if_neg hneg, toUInt32_toNat hge, AxisDirection.sign]
    omega

/-- The directions that `get_direction` knows survive the message. -/
theorem getDirection_ofByte (disp : Int32) :
    AxisDirection.ofByte (getDirection disp).toByte = getDirection disp := by
  unfold getDirection
  split <;> rfl

theorem ofByte?_toByte (key : CalibrationKey) :
    CalibrationKey.ofByte? key.toByte = some key := by
  cases key <;> rfl

/-- A value that has been converted and stored is the value. -/
theorem store_valueBytes (cal : Calibration) (key : CalibrationKey) (value : UInt64) :
    cal.store (key.valueBytes value) key = cal.set key value := by
  cases key with
  | gantryAccel | gantryVelStart | gantryVelHome =>
      simp [Calibration.store, CalibrationKey.valueBytes, Calibration.set]
  | tempAllC1 | tempAllC2 | tempAllC3 | tempAllResistor =>
      simp [Calibration.store, CalibrationKey.valueBytes, Calibration.set]

theorem valueBytes_size (key : CalibrationKey) (value : UInt64) :
    (key.valueBytes value).length = key.size := by
  cases key <;> simp [CalibrationKey.valueBytes, CalibrationKey.size]

/-- **The decoders undo the encoders.**  A MOVE built for a target arrives with its axis and
its velocity, and leads from the current position to the target; a position arrives as it
is; a CALIBRATE sets the field that its key names, and no other one.  In the receive buffer
anything may stand behind the payload. -/
theorem codecs_agree :
    (∀ (axis : AxisId) (velHold : UInt32) (cur target : Int32) (msg : ReceivedMessage),
      -2 ^ 31 < target.toInt - cur.toInt → target.toInt - cur.toInt < 2 ^ 31 →
      msg.packet.payload = Memory.movePayload axis (moveAxisArgs target cur).1 velHold
        (moveAxisArgs target cur).2 →
      ∃ data, Memory.recvMove msg = some data ∧ AxisId.ofByte? data.axis = some axis ∧
        data.velHold = velHold ∧
        cur.toInt + (AxisDirection.ofByte data.dir).sign * data.distCounts.toNat =
          target.toInt) ∧
    (∀ (x y : Int32) (msg : ReceivedMessage),
      msg.packet.payload = Memory.positionPayload x y → Memory.getPosition msg = ⟨x, y⟩) ∧
    ∀ (key : CalibrationKey) (value : UInt64) (sendBuf : Vector UInt8 msgDataLengthMax)
      (msg : ReceivedMessage) (cal : Calibration),
      msg.packet.payload = Memory.calibratePayload sendBuf.toList key value →
      Memory.recvCalibrate msg cal = some (cal.set key value) := by
  refine ⟨?_, ?_, ?_⟩
  · intro axis velHold cur target msg hlo hhi hpayload
    rw [Memory.movePayload_eq] at hpayload
    have hdata : Memory.recvMove msg = some ⟨velHold, (moveAxisArgs target cur).2, axis.toByte,
        (moveAxisArgs target cur).1.toByte⟩ := by
      rw [Memory.recvMove_eq, TestStandCommController.recvMove_payload, hpayload]
      exact congrArg some (MoveMsgData.ofBytes_toBytes _ [])
    refine ⟨_, hdata, AxisId.ofByte?_toByte axis, rfl, ?_⟩
    have hdir := getDirection_ofByte (target - cur)
    rw [show (moveAxisArgs target cur).1 = getDirection (target - cur) from rfl, hdir]
    exact moveAxisArgs_sum hlo hhi
  · intro x y msg hpayload
    obtain ⟨-, -, stale, hdata⟩ := ReceivedMessage.of_packet (rfl : msg.packet = msg.packet)
    rw [Memory.getPosition_eq, hdata, hpayload, Memory.positionPayload_eq]
    exact PositionMsgData.ofBytes_toBytes ⟨x, y⟩ stale
  · intro key value sendBuf msg cal hpayload
    obtain ⟨-, -, stale, hdata⟩ := ReceivedMessage.of_packet (rfl : msg.packet = msg.packet)
    rw [Memory.calibratePayload_eq] at hpayload
    have hvalue : (msg.data.toList.drop 1).take key.size = key.valueBytes value := by
      rw [hdata, hpayload]
      exact List.take_left' (valueBytes_size key value)
    rw [Memory.recvCalibrate_eq, recvCalibrate_cons hpayload, ofByte?_toByte, Option.map_some,
      hvalue, store_valueBytes]

/-- A MOVE from position -20 to position -50, received in a buffer that is zero
otherwise. -/
theorem codecs_agree_back :
    ∃ msg data, Memory.recvMove msg = some data ∧ AxisId.ofByte? data.axis = some .y ∧
      data.velHold = 75 ∧
      (-20 : Int) + (AxisDirection.ofByte data.dir).sign * data.distCounts.toNat = -50 := by
  obtain ⟨msg, hmsg, -⟩ := @exists_content
    (TestStandCommHost.movePacket .y .negative 75 30) (List.replicate 245 0)
    (by rw [List.length_replicate]; rfl)
  refine ⟨msg, codecs_agree.1 .y 75 (-20) (-50) msg (by decide) (by decide) ?_⟩
  rw [hmsg, Memory.movePayload_eq]
  decide

end MpmtTestStand.Ports
