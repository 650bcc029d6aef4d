import Mathlib.Data.List.Basic

/-! Tag-length-value streams with one length byte, a padding tag that stands alone and a tag
that ends the stream. A decoder that skips padding, stops at the end tag or at a truncated
field, and an encoder that writes the length modulo 256: what is decoded is always encodable,
and an encodable list is decoded as it was written. What is decoded of any other list is
`received`: a field that the encoding cannot represent cuts the stream or shifts it. -/
namespace StandaloneDHCP.Lib
set_option autoImplicit false

/-- The two tags with a meaning of their own. -/
structure TagFormat where
  pad : UInt8
  stop : UInt8

namespace TagFormat
variable (format : TagFormat)

/-- The fields of a stream from a position on, `skip` bytes of which belong to the field before. -/
def decodeFrom : ℕ → List UInt8 → List (UInt8 × List UInt8)
  | _, [] => []
  | skip + 1, _ :: rest => decodeFrom skip rest
  | 0, tag :: rest =>
    if tag = format.stop then []
    else if tag = format.pad then decodeFrom 0 rest
    else
      -- without a length byte the field is truncated
      let size := (rest.headD 0).toNat
      if rest.length < size + 1 then []
      else (tag, (rest.drop 1).take size) :: decodeFrom (size + 1) rest

def decode (stream : List UInt8) : List (UInt8 × List UInt8) := format.decodeFrom 0 stream

/-- The length is cut to one byte. -/
def encodeField (field : UInt8 × List UInt8) : List UInt8 :=
  field.1 :: UInt8.ofNat field.2.length :: field.2

def encode (fields : List (UInt8 × List UInt8)) : List UInt8 := fields.flatMap encodeField

theorem encode_append (first second : List (UInt8 × List UInt8)) :
    encode (first ++ second) = encode first ++ encode second :=
  List.flatMap_append

/-- The fields that the encoding can represent. -/
structure Encodable (field : UInt8 × List UInt8) : Prop where
  not_pad : field.1 ≠ format.pad
  not_stop : field.1 ≠ format.stop
  short : field.2.length ≤ 255

/-- What is decoded of written fields with `rest` behind them. Nothing is read behind the end tag;
behind the padding tag reading goes on at the length byte; of a value that is too long the length
modulo 256 counts, and reading goes on inside the value. -/
def received (rest : List UInt8) : List (UInt8 × List UInt8) → List (UInt8 × List UInt8)
  | [] => format.decode rest
  | field :: fields =>
    if field.1 = format.stop then []
    else if field.1 = format.pad then
      format.decode (UInt8.ofNat field.2.length :: (field.2 ++ (encode fields ++ rest)))
    else if field.2.length ≤ 255 then field :: received rest fields
    else (field.1, field.2.take (field.2.length % 256)) ::
      format.decode (field.2.drop (field.2.length % 256) ++ (encode fields ++ rest))

variable {format}

theorem decodeFrom_eq (stream : List UInt8) : ∀ skip,
    format.decodeFrom skip stream = format.decode (stream.drop skip) := by
  induction stream with
  | nil =>
    intro skip
    cases skip with
    | zero => rfl
    | succ skip => rfl
  | cons b rest ih =>
    intro skip
    cases skip with
    | zero => rfl
    | succ skip => exact ih skip

theorem decode_stop (rest : List UInt8) : format.decode (format.stop :: rest) = [] := by
  simp [decode, decodeFrom]

/-- One round of the decoder. -/
theorem decode_cons (tag size : UInt8) (body : List UInt8) (hstop : tag ≠ format.stop)
    (hpad : tag ≠ format.pad) (hfits : size.toNat ≤ body.length) :
    format.decode (tag :: size :: body) =
      (tag, body.take size.toNat) :: format.decode (body.drop size.toNat) := by
  have hlong : ¬ (size :: body).length < ((size :: body).headD 0).toNat + 1 := by
    rw [List.length_cons, List.headD_cons]
    omega
  rw [decode, decodeFrom, if_neg hstop, if_neg hpad]
  show (if _ then _ else _) = _
  rw [if_neg hlong, decodeFrom_eq]
  rfl

theorem decode_encodeField {field : UInt8 × List UInt8} (hfield : format.Encodable field)
    (rest : List UInt8) :
    format.decode (encodeField field ++ rest) = field :: format.decode rest := by
  have hsize : (UInt8.ofNat field.2.length).toNat = field.2.length := by
    have hshort := hfield.short
    rw [UInt8.toNat_ofNat']
    omega
  rw [encodeField, List.cons_append, List.cons_append,
    decode_cons _ _ _ hfield.not_stop hfield.not_pad (by simp [hsize]), hsize,
    List.take_left, List.drop_left]

theorem decode_encode {fields : List (UInt8 × List UInt8)}
    (hfields : ∀ field ∈ fields, format.Encodable field) (rest : List UInt8) :
    format.decode (encode fields ++ rest) = fields ++ format.decode rest := by
  induction fields with
  | nil => rfl
  | cons field fields ih =>
    have hrest := ih fun f hf => hfields f (List.mem_cons_of_mem field hf)
    rw [encode, List.flatMap_cons, List.append_assoc, ← encode,
      decode_encodeField (hfields field List.mem_cons_self), hrest, List.cons_append]

theorem decode_pad (hne : format.pad ≠ format.stop) (rest : List UInt8) :
    format.decode (format.pad :: rest) = format.decode rest := by
  rw [decode, decodeFrom, if_neg hne, if_pos rfl]
  rfl

/-- The decoder on any fields, whether they can be represented or not. -/
theorem decode_encode_eq_received (fields : List (UInt8 × List UInt8)) (rest : List UInt8) :
    format.decode (encode fields ++ rest) = format.received rest fields := by
  induction fields with
  | nil => rfl
  | cons field fields ih =>
    have hcons : encode (field :: fields) ++ rest =
        field.1 :: UInt8.ofNat field.2.length :: (field.2 ++ (encode fields ++ rest)) := by
      rw [encode, List.flatMap_cons, List.append_assoc]
      rfl
    rw [hcons, received]
    split_ifs with hstop hpad hshort
    · rw [hstop]
      exact decode_stop _
    · have hne : format.pad ≠ format.stop := fun heq => hstop (hpad.trans heq)
      rw [hpad]
      exact decode_pad hne _
    · rw [← ih, ← hcons, encode, List.flatMap_cons, List.append_assoc]
      exact decode_encodeField ⟨hpad, hstop, hshort⟩ _
    · -- the length byte is smaller than the value, so that the field is not truncated
      have hsize : (UInt8.ofNat field.2.length).toNat = field.2.length % 256 := UInt8.toNat_ofNat'
      have hle : field.2.length % 256 ≤ field.2.length := Nat.mod_le _ _
      rw [decode_cons _ _ _ hstop hpad (by rw [hsize, List.length_append]; omega), hsize,
        List.take_append_of_le_length hle, List.drop_append_of_le_length hle]

/-- An end tag among the fields only cuts off what stands behind it. -/
theorem received_of_short {fields : List (UInt8 × List UInt8)} {rest : List UInt8}
    (hfields : ∀ field ∈ fields.takeWhile (fun field => field.1 != format.stop),
      field.1 ≠ format.pad ∧ field.2.length ≤ 255) (hrest : format.decode rest = []) :
    format.received rest fields = fields.takeWhile fun field => field.1 != format.stop := by
  induction fields with
  | nil => exact hrest
  | cons field fields ih =>
    rw [received]
    split_ifs with hstop hpad hshort
    · rw [List.takeWhile_cons_of_neg (by simp [hstop])]
    all_goals
      rw [List.takeWhile_cons_of_pos (by simpa using hstop)] at hfields ⊢
      have hfield := hfields field List.mem_cons_self
    · exact absurd hpad hfield.1
    · rw [ih fun f hf => hfields f (List.mem_cons_of_mem field hf)]
    · exact absurd hfield.2 hshort

theorem encodable_of_mem_decodeFrom (stream : List UInt8) : ∀ (skip : ℕ)
    (field : UInt8 × List UInt8), field ∈ format.decodeFrom skip stream →
    format.Encodable field := by
  induction stream with
  | nil =>
    intro skip field hmem
    cases skip <;> simp [decodeFrom] at hmem
  | cons tag rest ih =>
    intro skip field hmem
    cases skip with
    | succ skip => exact ih skip field hmem
    | zero =>
      by_cases hstop : tag = format.stop
      · simp [decodeFrom, hstop] at hmem
      by_cases hpad : tag = format.pad
      · rw [decodeFrom, if_neg hstop, if_pos hpad] at hmem
        exact ih 0 field hmem
      rw [decodeFrom, if_neg hstop, if_neg hpad] at hmem
      simp only at hmem
      split at hmem
      · simp at hmem
      · obtain rfl | hrest := List.mem_cons.mp hmem
        · have hlt := (rest.headD 0).toNat_lt
          refine ⟨hpad, hstop, ?_⟩
          rw [List.length_take]
          omega
        · exact ih _ field hrest

theorem encodable_of_mem_decode {stream : List UInt8} {field : UInt8 × List UInt8}
    (hmem : field ∈ format.decode stream) : format.Encodable field :=
  encodable_of_mem_decodeFrom stream 0 field hmem

end TagFormat
end StandaloneDHCP.Lib
