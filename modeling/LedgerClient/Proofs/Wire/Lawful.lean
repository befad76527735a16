import LedgerClient.Proofs.Wire.Unambiguous

/-!
# Lawful codecs

What a codec has to satisfy, relative to the values that its reader can answer with (`Fits`): a
value that fits is read back from its form and nothing behind the form is touched; whatever is
read is the form of a value that fits; and forms are unambiguous, also those of values that do not
fit. The laws pass from the parts of a codec to the whole, so that the codec of a type is lawful
because it is put together from lawful ones.
-/

set_option autoImplicit false

namespace LedgerClient.Codec

variable {α β : Type}

/-- The laws of a codec whose reader answers with the values that fit. -/
structure Lawful (c : Codec α) (Fits : α → Prop) : Prop where
  appends : c.Appends
  read_write : ∀ {v}, Fits v → ∀ rest, c.read (c.write v ++ rest) = (.ok v, rest)
  eq_write_of_read : ∀ {unread v rest}, c.read unread = (.ok v, rest) →
    unread = c.write v ++ rest ∧ Fits v
  unambiguous : ∀ v, c.Unambiguous v
  steady : c.read.Steady

/-- So many things can be counted on the wire. -/
def CountFits (n : Nat) : Prop := n < UInt32.size

instance (n : Nat) : Decidable (CountFits n) := inferInstanceAs (Decidable (n < UInt32.size))

/-- The values can be counted, and each of them fits. -/
def ListFits (Fits : α → Prop) (vs : List α) : Prop := CountFits vs.length ∧ ∀ v ∈ vs, Fits v

/-- The value fits, if there is one. -/
def OptionFits (Fits : α → Prop) (o : Option α) : Prop := ∀ v, o = some v → Fits v

/-- The bytes of the text can be counted. -/
def TextFits (text : String) : Prop := CountFits (Utf8.encode text.toList).length

instance (text : String) : Decidable (TextFits text) := inferInstanceAs (Decidable (CountFits _))

section Laws

variable {c : Codec α} {d : Codec β} {Fits : α → Prop} {Fits' : β → Prop}

/-- The whole form of a value that fits is decoded to the value. -/
theorem Lawful.decode_write (h : c.Lawful Fits) {v : α} (fits : Fits v) :
    c.decode (c.write v) = .ok v := by
  have read := h.read_write fits []
  rw [List.append_nil] at read
  rw [decode, Reader.whole, Reader.andThen_of_ok read]
  rfl

/-- Bytes behind the form of a value that fits are counted and refused. -/
theorem Lawful.decode_write_append (h : c.Lawful Fits) {v : α} (fits : Fits v) {rest : Bytes}
    (more : rest ≠ []) : c.decode (c.write v ++ rest) = .error (.trailing rest.length) := by
  rw [decode, Reader.whole, Reader.andThen_of_ok (h.read_write fits rest)]
  cases rest with
  | nil => exact absurd rfl more
  | cons b tail => rfl

/-- What is decoded is the form of a value that fits, and all of it. -/
theorem Lawful.eq_write_of_decode (h : c.Lawful Fits) {bytes : Bytes} {v : α}
    (decoded : c.decode bytes = .ok v) : bytes = c.write v ∧ Fits v := by
  rcases read : c.read bytes with ⟨e | w, rest⟩
  · rw [decode, Reader.whole, Reader.andThen_of_error read] at decoded
    cases decoded
  · rw [decode, Reader.whole, Reader.andThen_of_ok read] at decoded
    cases rest with
    | nil =>
      obtain rfl := Except.ok.inj decoded
      obtain ⟨form, fits⟩ := h.eq_write_of_read read
      rw [List.append_nil] at form
      exact ⟨form, fits⟩
    | cons b tail => cases decoded

/-- The laws speak of the values that fit, however these are described. -/
theorem Lawful.congr {Other : α → Prop} (h : c.Lawful Fits) (iff : ∀ v, Fits v ↔ Other v) :
    c.Lawful Other where
  appends := h.appends
  read_write fits := h.read_write ((iff _).2 fits)
  eq_write_of_read read := (h.eq_write_of_read read).imp_right (iff _).1
  unambiguous := h.unambiguous
  steady := h.steady

/-- A value is checked as it is read: `forget` loses nothing, values that are accepted are those
that fit, and each is the one that was written. -/
theorem Lawful.checked (h : c.Lawful Fits) {check : α → Except DataError β} {forget : β → α}
    (passes : ∀ v, Fits' v → check (forget v) = .ok v ∧ Fits (forget v))
    (sound : ∀ a v, Fits a → check a = .ok v → forget v = a ∧ Fits' v)
    (injective : ∀ v w, forget v = forget w → v = w) : (c.checked check forget).Lawful Fits' where
  appends v := h.appends (forget v)
  read_write {v} fits rest := by
    obtain ⟨passed, fits⟩ := passes v fits
    have read : (c.checked check forget).read (c.write (forget v) ++ rest) =
      (check (forget v), rest) := Reader.andThen_of_ok (h.read_write fits rest)
    rwa [passed] at read
  eq_write_of_read read := by
    obtain ⟨a, mid, first, accepted⟩ := Reader.andThen_eq_ok.1 read
    obtain ⟨passed, rfl⟩ := Prod.mk.inj accepted
    obtain ⟨form, whole⟩ := h.eq_write_of_read first
    obtain ⟨rfl, fits⟩ := sound _ _ whole passed
    exact ⟨form, fits⟩
  unambiguous v := (h.unambiguous (forget v)).checked injective
  steady := .andThen h.steady fun a => .ofExcept (check a)

/-- Two names for one set of values. -/
theorem Lawful.via (h : c.Lawful Fits) {build : α → β} {forget : β → α}
    (build_forget : ∀ v, build (forget v) = v) (forget_build : ∀ a, forget (build a) = a) :
    (c.via build forget).Lawful fun v => Fits (forget v) :=
  h.checked (fun v fits => ⟨congrArg Except.ok (build_forget v), fits⟩)
    (fun a v fits built => by
      obtain rfl := Except.ok.inj built
      rw [forget_build]
      exact ⟨rfl, fits⟩)
    (fun v w same => by rw [← build_forget v, same, build_forget])

/-- `Lawful.via` where the values that fit are described by their own parts. -/
theorem Lawful.via_congr (h : c.Lawful Fits) {build : α → β} {forget : β → α}
    (build_forget : ∀ v, build (forget v) = v) (forget_build : ∀ a, forget (build a) = a)
    (iff : ∀ v, Fits (forget v) ↔ Fits' v) : (c.via build forget).Lawful Fits' :=
  (h.via build_forget forget_build).congr iff

end Laws

/-! ## Values without parts -/

theorem lawful_unit {Fits : Unit → Prop} (fits : Fits ()) : unit.Lawful Fits where
  appends _ := Buffer.appends_id
  read_write _ _ := rfl
  eq_write_of_read read := ⟨(Reader.ok_inj read).2, fits⟩
  unambiguous := unambiguous_unit
  steady := .ok ()

theorem lawful_u8 : u8.Lawful fun _ => True where
  appends := Buffer.appends_push
  read_write {v} _ rest := by
    rw [write_u8]
    exact Reader.byte_cons v rest
  eq_write_of_read read := by
    rw [write_u8]
    exact ⟨Reader.eq_cons_of_byte read, trivial⟩
  unambiguous := unambiguous_u8
  steady := .byte

/-- Values whose forms all have one size, each of them the only bytes that pass for the value. -/
theorem lawful_fixed {size : Nat} {form : α → Bytes} {check : Bytes → Except DataError α}
    (length : ∀ v, (form v).length = size) (passes : ∀ v, check (form v) = .ok v)
    (sound : ∀ bytes v, bytes.length = size → check bytes = .ok v → form v = bytes) :
    ((raw size).checked check form).Lawful fun _ => True where
  appends v := appends_raw size (form v)
  read_write {v} _ rest := by
    have form : ((raw size).checked check form).write v = form v := write_raw size _
    have read := Reader.andThen_of_ok (f := fun bytes => .ofExcept (check bytes))
      (Reader.take_append (length v) rest)
    rw [form]
    exact read.trans (congrArg (·, rest) (passes v))
  eq_write_of_read {unread v rest} read := by
    have form : ((raw size).checked check form).write v = form v := write_raw size _
    obtain ⟨bytes, mid, taken, accepted⟩ := Reader.andThen_eq_ok.1 read
    obtain ⟨passed, rfl⟩ := Prod.mk.inj accepted
    obtain ⟨len, rfl⟩ := Reader.eq_append_of_take taken
    rw [form, sound bytes v len passed]
    exact ⟨rfl, trivial⟩
  unambiguous := by
    have form : ∀ v, ((raw size).checked check form).write v = form v := fun v => write_raw size _
    apply unambiguous_of_length
    · intro v w
      rw [form, form, length, length]
    · intro v w same
      rw [form, form] at same
      exact Except.ok.inj ((passes v).symm.trans ((congrArg check same).trans (passes w)))
  steady := .andThen (.take size) fun bytes => .ofExcept (check bytes)

/-- A type of words is the numbers of a width. -/
theorem lawful_word {width : Nat} {build : Nat → α} {forget : α → Nat}
    (small : ∀ v, forget v < Nat.pow 256 width) (build_forget : ∀ v, build (forget v) = v)
    (forget_build : ∀ n, n < Nat.pow 256 width → forget (build n) = n) :
    ((littleEndian width).via build forget).Lawful fun _ => True := by
  have whole : (littleEndian width).via build forget =
      (raw width).checked (fun bytes => .ok (build (Bytes.ofLittleEndian bytes)))
        (fun v => Bytes.littleEndian width (forget v)) :=
    congrArg (Codec.mk _) (Reader.andThen_assoc (.take width) _ _)
  rw [whole]
  refine lawful_fixed (fun v => Bytes.length_littleEndian width _) (fun v => ?_) ?_
  · rw [Bytes.ofLittleEndian_littleEndian (small v), build_forget]
  · intro bytes v len spelled
    obtain rfl := Except.ok.inj spelled
    have bound := Bytes.ofLittleEndian_lt bytes
    rw [len] at bound
    rw [forget_build _ bound, Bytes.littleEndian_ofLittleEndian len]

theorem lawful_u16 : u16.Lawful fun _ => True :=
  lawful_word UInt16.toNat_lt (fun _ => UInt16.ofNat_toNat) fun _ => UInt16.toNat_ofNat_of_lt

theorem lawful_u32 : u32.Lawful fun _ => True :=
  lawful_word UInt32.toNat_lt (fun _ => UInt32.ofNat_toNat) fun _ => UInt32.toNat_ofNat_of_lt

theorem lawful_u64 : u64.Lawful fun _ => True :=
  lawful_word UInt64.toNat_lt (fun _ => UInt64.ofNat_toNat) fun _ => UInt64.toNat_ofNat_of_lt

theorem lawful_u128 : u128.Lawful fun _ => True :=
  lawful_word BitVec.isLt (fun v => BitVec.ofNat_toNat 128 v) fun n small =>
    (BitVec.toNat_ofNat n 128).trans (Nat.mod_eq_of_lt small)

theorem lawful_bare (kind : Octets.Kind) : (bare kind).Lawful fun _ => True :=
  lawful_fixed Octets.length_toList Octets.ofBytes_toList fun _ _ _ => Octets.toList_of_ofBytes

/-- One byte that is zero or one. -/
theorem lawful_bool : bool.Lawful fun _ => True where
  appends v := Buffer.appends_push _
  read_write {v} _ rest := by
    cases v <;> rfl
  eq_write_of_read {unread v rest} read := by
    obtain ⟨b, mid, first, value⟩ := Reader.andThen_eq_ok.1 read
    obtain rfl := Reader.eq_cons_of_byte first
    split at value
    · rename_i zero
      obtain ⟨rfl, rfl⟩ := Reader.ok_inj value
      exact ⟨by rw [zero]; rfl, trivial⟩
    split at value
    · rename_i one
      obtain ⟨rfl, rfl⟩ := Reader.ok_inj value
      exact ⟨by rw [one]; rfl, trivial⟩
    · exact (Reader.not_fail_eq_ok value).elim
  unambiguous := unambiguous_bool
  steady := .andThen .byte fun b => by
    split
    · exact .ok false
    split
    · exact .ok true
    · exact .fail _

/-! ## Values with their length in front -/

theorem lawful_number : number.Lawful CountFits where
  appends := appends_number
  read_write {n} small rest := by
    rw [write_number]
    exact Uleb128.read_encode small rest
  eq_write_of_read read := by
    rw [write_number]
    exact Uleb128.eq_encode_of_read read
  unambiguous := unambiguous_number
  steady := Uleb128.steady_read

theorem lawful_bytes : bytes.Lawful fun s => CountFits s.length where
  appends := appends_bytes
  read_write {s} small rest := by
    rw [write_bytes, List.append_assoc]
    exact (Reader.andThen_of_ok (Uleb128.read_encode small _)).trans (Reader.take_append rfl rest)
  eq_write_of_read {unread s rest} read := by
    obtain ⟨count, mid, length, taken⟩ := Reader.andThen_eq_ok.1 read
    obtain ⟨rfl, small⟩ := Uleb128.eq_encode_of_read length
    obtain ⟨rfl, rfl⟩ := Reader.eq_append_of_take taken
    rw [write_bytes, List.append_assoc]
    exact ⟨rfl, small⟩
  unambiguous := unambiguous_bytes
  steady := .andThen Uleb128.steady_read .take

theorem lawful_framed (kind : Octets.Kind) (small : CountFits kind.size) :
    (framed kind).Lawful fun _ => True :=
  lawful_bytes.checked
    (fun x _ => ⟨Octets.ofBytes_toList x, by rw [x.length_toList]; exact small⟩)
    (fun _ _ _ passed => ⟨Octets.toList_of_ofBytes passed, trivial⟩) (fun _ _ => Octets.ext)

theorem lawful_text : text.Lawful TextFits :=
  lawful_bytes.checked
    (fun s fits => by
      rw [Utf8.decode_encode]
      exact ⟨congrArg Except.ok String.ofList_toList, fits⟩)
    (fun bytes s small passed => by
      split at passed
      · rename_i cs spelled
        obtain rfl := Except.ok.inj passed
        obtain rfl := Utf8.eq_encode_of_decode spelled
        rw [TextFits, String.toList_ofList]
        exact ⟨rfl, small⟩
      · cases passed)
    (fun _ _ same => String.toList_inj.1 (Utf8.encode_inj same))

/-! ## Values made of others -/

section Parts

variable {c : Codec α} {d : Codec β} {Fits : α → Prop} {Fits' : β → Prop}

theorem Lawful.pair (hc : c.Lawful Fits) (hd : d.Lawful Fits') :
    (c.pair d).Lawful fun v => Fits v.1 ∧ Fits' v.2 where
  appends := hc.appends.pair hd.appends
  read_write {v} fits rest := by
    have second := Reader.andThen_of_ok (f := fun y => .ok (v.1, y)) (hd.read_write fits.2 rest)
    rw [write_pair hc.appends hd.appends, List.append_assoc]
    exact (Reader.andThen_of_ok (hc.read_write fits.1 _)).trans second
  eq_write_of_read {unread v rest} read := by
    obtain ⟨x, mid, first, more⟩ := Reader.andThen_eq_ok.1 read
    obtain ⟨y, mid', second, value⟩ := Reader.andThen_eq_ok.1 more
    obtain ⟨rfl, rfl⟩ := Reader.ok_inj value
    obtain ⟨rfl, fits⟩ := hc.eq_write_of_read first
    obtain ⟨rfl, fits'⟩ := hd.eq_write_of_read second
    rw [write_pair hc.appends hd.appends, List.append_assoc]
    exact ⟨rfl, fits, fits'⟩
  unambiguous v :=
    .pair hc.appends hd.appends (hc.unambiguous v.1) (hd.unambiguous v.2)
  steady := .andThen hc.steady fun x => .andThen hd.steady fun y => .ok (x, y)

theorem Lawful.option (h : c.Lawful Fits) : c.option.Lawful (OptionFits Fits) where
  appends := h.appends.option
  read_write {o} fits rest := by
    cases o with
    | none => rw [write_option_none]; rfl
    | some v =>
      rw [write_option_some h.appends]
      exact Reader.andThen_of_ok (f := fun v => .ok (some v)) (h.read_write (fits v rfl) rest)
  eq_write_of_read {unread o rest} read := by
    obtain ⟨tag, mid, first, content⟩ := Reader.andThen_eq_ok.1 read
    obtain rfl := Reader.eq_cons_of_byte first
    split at content
    · rename_i none
      obtain ⟨rfl, rfl⟩ := Reader.ok_inj content
      rw [write_option_none, none]
      exact ⟨rfl, nofun⟩
    split at content
    · rename_i some
      obtain ⟨v, mid', value, whole⟩ := Reader.andThen_eq_ok.1 content
      obtain ⟨rfl, rfl⟩ := Reader.ok_inj whole
      obtain ⟨rfl, fits⟩ := h.eq_write_of_read value
      rw [write_option_some h.appends, some]
      exact ⟨rfl, fun w same => Option.some.inj same ▸ fits⟩
    · exact (Reader.not_fail_eq_ok content).elim
  unambiguous _ := .option h.appends fun v _ => h.unambiguous v
  steady := .andThen .byte fun tag => by
    split
    · exact .ok none
    split
    · exact .andThen h.steady fun v => .ok (some v)
    · exact .fail _

/-- The forms of the values, one after the other, are read as so many values. -/
theorem Lawful.times_flatMap (h : c.Lawful Fits) {vs : List α} (fits : ∀ v ∈ vs, Fits v)
    (rest : Bytes) :
    Reader.times vs.length c.read (vs.flatMap c.write ++ rest) = (.ok vs, rest) := by
  induction vs with
  | nil => rfl
  | cons v vs ih =>
    obtain ⟨first, others⟩ := List.forall_mem_cons.1 fits
    have more := Reader.andThen_of_ok (f := fun vs => .ok (v :: vs)) (ih others)
    rw [List.flatMap_cons, List.append_assoc]
    exact (Reader.andThen_of_ok (h.read_write first _)).trans more

theorem Lawful.eq_flatMap_of_times (h : c.Lawful Fits) {count : Nat} {unread rest : Bytes}
    {vs : List α} (read : Reader.times count c.read unread = (.ok vs, rest)) :
    vs.length = count ∧ unread = vs.flatMap c.write ++ rest ∧ ∀ v ∈ vs, Fits v := by
  induction count generalizing unread vs with
  | zero =>
    obtain ⟨rfl, rfl⟩ := Reader.ok_inj read
    exact ⟨rfl, rfl, nofun⟩
  | succ count ih =>
    obtain ⟨v, mid, first, more⟩ := Reader.andThen_eq_ok.1 read
    obtain ⟨others, mid', times, value⟩ := Reader.andThen_eq_ok.1 more
    obtain ⟨rfl, rfl⟩ := Reader.ok_inj value
    obtain ⟨rfl, fits⟩ := h.eq_write_of_read first
    obtain ⟨rfl, rfl, fits'⟩ := ih times
    rw [List.flatMap_cons, List.append_assoc]
    exact ⟨rfl, rfl, List.forall_mem_cons.2 ⟨fits, fits'⟩⟩

theorem Lawful.list (h : c.Lawful Fits) : c.list.Lawful (ListFits Fits) where
  appends := h.appends.list
  read_write {vs} fits rest := by
    rw [write_list h.appends, List.append_assoc]
    exact (Reader.andThen_of_ok (Uleb128.read_encode fits.1 _)).trans (h.times_flatMap fits.2 rest)
  eq_write_of_read {unread vs rest} read := by
    obtain ⟨count, mid, length, times⟩ := Reader.andThen_eq_ok.1 read
    obtain ⟨rfl, small⟩ := Uleb128.eq_encode_of_read length
    obtain ⟨rfl, rfl, fits⟩ := h.eq_flatMap_of_times times
    rw [write_list h.appends, List.append_assoc]
    exact ⟨rfl, small, fits⟩
  unambiguous _ := .list h.appends fun v _ => h.unambiguous v
  steady := .andThen Uleb128.steady_read fun count => .times h.steady count

end Parts

end LedgerClient.Codec
