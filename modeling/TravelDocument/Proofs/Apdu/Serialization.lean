import TravelDocument.Proofs.Apdu.Command
import TravelDocument.Proofs.Bytes

/-!
# A serialized command has one reading

`Command.decode?` is the case analysis of ISO/IEC 7816-3 by which a card takes a command apart. It
is the inverse of serialization (`Command.encode_iff_decode?`), so no two commands look the same,
and a command that was made for some request data and an expected length gives both back
(`serialization_unambiguous`).
-/

namespace TravelDocument.Apdu

namespace Body

/-! ## Reading -/

/-- The number of a two-byte length field. -/
def lengthField (high low : UInt8) : Nat :=
  Bytes.toNat [high, low]

/-- The case, by what follows the data after a short Lc field. -/
def endShort? (data : Bytes) : Bytes → Option Body
  | [] => some (.case3Short data)
  | [le] => some (.case4Short data le)
  | _ => none

/-- The case, by what follows the data after an extended Lc field. -/
def endExtended? (data : Bytes) : Bytes → Option Body
  | [] => some (.case3Extended data)
  | [high, low] => some (.case4Extended data (UInt16.ofNat (lengthField high low)))
  | _ => none

/-- What follows the zero byte of extended length fields. -/
def decodeExtended? : Bytes → Option Body
  | high :: low :: rest =>
    let length := lengthField high low
    if rest.isEmpty then some (.case2Extended (UInt16.ofNat length))
    else if length = 0 ∨ rest.length < length then none
    else endExtended? (rest.take length) (rest.drop length)
  | _ => none

/-- Takes a body apart: its length and a first zero byte tell the case. -/
def decode? : Bytes → Option Body
  | [] => some .case1
  | [le] => some (.case2Short le)
  | first :: rest =>
    if first = 0 then decodeExtended? rest
    else if rest.length < first.toNat then none
    else endShort? (rest.take first.toNat) (rest.drop first.toNat)

end Body

/-- Takes a command apart. -/
def Command.decode? : Bytes → Option Command
  | cla :: ins :: p1 :: p2 :: rest => (Body.decode? rest).map fun body =>
    ⟨⟨cla, ins, p1, p2⟩, body⟩
  | _ => none

namespace Body

/-! ## Reading what was written -/

theorem be_two (n : Nat) :
    ∃ high low, Bytes.be 2 n = [high, low] ∧ lengthField high low = n % 65536 := by
  refine ⟨UInt8.ofNat (n / 256), UInt8.ofNat n, rfl, ?_⟩
  have := Bytes.toNat_be 2 n
  exact this

theorem be_lengthField (high low : UInt8) : Bytes.be 2 (lengthField high low) = [high, low] :=
  Bytes.be_toNat [high, low]

theorem lengthField_lt (high low : UInt8) : lengthField high low < 65536 := by
  have h := Bytes.toNat_lt [high, low]
  rwa [show 256 ^ [high, low].length = 65536 by simp] at h

theorem toNat_le_eq (le : UInt16) : ∃ high low, Bytes.be 2 le.toNat = [high, low] ∧
    UInt16.ofNat (lengthField high low) = le := by
  obtain ⟨high, low, hbe, hfield⟩ := be_two le.toNat
  refine ⟨high, low, hbe, ?_⟩
  rw [hfield, Nat.mod_eq_of_lt le.toNat_lt, UInt16.ofNat_toNat]

theorem decode?_short {data : Bytes} (h : data ≠ []) (hl : data.length ≤ maxShortLc)
    (rest : Bytes) :
    decode? (UInt8.ofNat data.length :: (data ++ rest)) = endShort? data rest := by
  have hlc : (UInt8.ofNat data.length).toNat = data.length := by
    simp only [maxShortLc] at hl
    rw [UInt8.toNat_ofNat', Nat.mod_eq_of_lt (by omega)]
  have hne : UInt8.ofNat data.length ≠ 0 := by
    intro hz
    rw [hz] at hlc
    exact h (List.length_eq_zero_iff.1 hlc.symm)
  obtain ⟨first, tail, rfl⟩ := List.exists_cons_of_ne_nil h
  rw [List.cons_append, decode?, if_neg hne, hlc, ← List.cons_append, if_neg (by simp),
    List.drop_left, List.take_left]
  simp

theorem decode?_extended {data : Bytes} (h : data ≠ []) (hl : data.length ≤ maxExtendedLc)
    (rest : Bytes) :
    decode? (0x00 :: (Bytes.be 2 data.length ++ (data ++ rest))) = endExtended? data rest := by
  obtain ⟨high, low, hbe, hfield⟩ := be_two data.length
  simp only [maxExtendedLc] at hl
  rw [Nat.mod_eq_of_lt (by omega)] at hfield
  have hempty : (data ++ rest).isEmpty = false := by simp [h]
  have hlength : ¬ (data.length = 0 ∨ (data ++ rest).length < data.length) := by simp [h]
  rw [hbe, List.cons_append, List.cons_append, List.nil_append, decode?, if_pos rfl,
    decodeExtended?, hfield, hempty]
  · rw [if_neg (by simp), if_neg hlength, List.drop_left, List.take_left]
  · simp

/-- **A body is read as what it is.** -/
theorem decode?_layout {body : Body} (h : body.Fits) : decode? body.layout = some body := by
  -- data in front of Le or of the end is read alike (`decode?_short`, `decode?_extended`)
  cases body with
  | case1 => rfl
  | case2Short le => rfl
  | case2Extended le =>
    obtain ⟨high, low, hbe, hle⟩ := toNat_le_eq le
    rw [layout, hbe, decode?, if_pos rfl, decodeExtended?, hle]
    · rfl
    · simp
  | case3Short data =>
    obtain ⟨hne, hl⟩ := h data rfl
    have hread := decode?_short hne hl []
    rwa [List.append_nil] at hread
  | case3Extended data =>
    obtain ⟨hne, hl⟩ := h data rfl
    have hread := decode?_extended hne hl []
    rwa [List.append_nil] at hread
  | case4Short data le =>
    obtain ⟨hne, hl⟩ := h data rfl
    exact decode?_short hne hl [le]
  | case4Extended data le =>
    obtain ⟨hne, hl⟩ := h data rfl
    obtain ⟨high, low, hbe, hle⟩ := toNat_le_eq le
    rw [layout, hbe, List.append_assoc, decode?_extended hne hl, endExtended?, hle]

/-! ## Nothing else is read -/

theorem endShort?_eq_some {data rest : Bytes} {body : Body} (h : endShort? data rest = some body) :
    body.request = some data ∧ body.isExtended = false ∧
      body.layout = UInt8.ofNat data.length :: (data ++ rest) := by
  match rest, h with
  | [], h =>
    cases h
    exact ⟨rfl, rfl, by rw [List.append_nil, layout]⟩
  | [le], h =>
    cases h
    exact ⟨rfl, rfl, rfl⟩

theorem endExtended?_eq_some {data rest : Bytes} {body : Body}
    (h : endExtended? data rest = some body) :
    body.request = some data ∧ body.isExtended = true ∧
      body.layout = 0x00 :: (Bytes.be 2 data.length ++ (data ++ rest)) := by
  match rest, h with
  | [], h =>
    cases h
    exact ⟨rfl, rfl, by rw [List.append_nil, layout]⟩
  | [high, low], h =>
    cases h
    refine ⟨rfl, rfl, ?_⟩
    rw [layout, UInt16.toNat_ofNat', Nat.mod_eq_of_lt (lengthField_lt high low), be_lengthField,
      List.append_assoc]

theorem fits_of_request {body : Body} {data : Bytes} (hr : body.request = some data)
    (hpos : 0 < data.length) (hl : data.length ≤ body.maxLc) : body.Fits := by
  intro d hd
  obtain rfl : d = data := Option.some.inj (hd.symm.trans hr)
  exact ⟨List.ne_nil_of_length_pos hpos, hl⟩

theorem layout_of_decodeExtended? {bytes : Bytes} {body : Body}
    (h : decodeExtended? bytes = some body) :
    body.Fits ∧ body.layout = 0x00 :: bytes := by
  match bytes, h with
  | high :: low :: rest, h =>
    have hlt := lengthField_lt high low
    simp only [decodeExtended?] at h
    -- with nothing behind it the length field is Le, otherwise it is Lc
    split at h
    · rename_i hempty
      cases h
      obtain rfl := List.isEmpty_iff.1 hempty
      refine ⟨nofun, ?_⟩
      rw [layout, UInt16.toNat_ofNat', Nat.mod_eq_of_lt hlt, be_lengthField]
    · split at h
      · cases h
      · rename_i hl
        have hlength : (rest.take (lengthField high low)).length = lengthField high low := by
          rw [List.length_take]
          omega
        obtain ⟨hrequest, hext, hlayout⟩ := endExtended?_eq_some h
        refine ⟨fits_of_request hrequest (by omega) ?_, ?_⟩
        · rw [hlength, maxLc, hext, if_pos rfl]
          simp only [maxExtendedLc]
          omega
        · rw [hlayout, hlength, be_lengthField, List.take_append_drop]
          rfl

/-- **What is read has that serialized form.** -/
theorem layout_of_decode? {bytes : Bytes} {body : Body} (h : decode? bytes = some body) :
    body.Fits ∧ body.layout = bytes := by
  match bytes, h with
  | [], h =>
    cases h
    exact ⟨nofun, rfl⟩
  | [le], h =>
    cases h
    exact ⟨nofun, rfl⟩
  | first :: second :: rest, h =>
    rw [decode?] at h
    · split at h
      · rename_i hz
        obtain ⟨hfits, hlayout⟩ := layout_of_decodeExtended? h
        exact ⟨hfits, by rw [hlayout, hz]⟩
      · rename_i hne
        -- a zero in front is an extended length field, any other byte a short one
        split at h
        · cases h
        · rename_i hl
          have hlength : ((second :: rest).take first.toNat).length = first.toNat := by
            rw [List.length_take, Nat.min_eq_left (Nat.le_of_not_lt hl)]
          obtain ⟨hrequest, hext, hlayout⟩ := endShort?_eq_some h
          have hpos : first.toNat ≠ 0 := fun hz => hne (UInt8.toNat.inj hz)
          have hlt := first.toNat_lt
          refine ⟨fits_of_request hrequest (by omega) ?_, ?_⟩
          · rw [hlength, maxLc, hext]
            simp only [Bool.false_eq_true, if_false, maxShortLc]
            omega
          · rw [hlayout, hlength, UInt8.ofNat_toNat, List.take_append_drop]
    · simp

/-- **Reading is the inverse of serialization.** -/
theorem encode_iff_decode? {body : Body} {bytes : Bytes} :
    body.encode = .ok bytes ↔ decode? bytes = some body := by
  rw [encode_eq_ok_iff]
  constructor
  · rintro ⟨hfits, rfl⟩
    exact decode?_layout hfits
  · intro h
    obtain ⟨hfits, hlayout⟩ := layout_of_decode? h
    exact ⟨hfits, hlayout.symm⟩

end Body

namespace Command

/-! ## Whole commands -/

theorem encode_eq_ok_iff {c : Command} {bytes : Bytes} :
    c.encode = .ok bytes ↔ ∃ body, c.body.encode = .ok body ∧
      bytes = c.header.toBytes ++ body := by
  rw [encode]
  cases c.body.encode with
  | error e => simp [bind, Except.bind]
  | ok body => simp [bind, Except.bind, pure, Except.pure, eq_comm]

/-- **Reading is the inverse of serialization.** -/
theorem encode_iff_decode? {c : Command} {bytes : Bytes} :
    c.encode = .ok bytes ↔ decode? bytes = some c := by
  rw [encode_eq_ok_iff]
  constructor
  · rintro ⟨body, hbody, rfl⟩
    rw [Header.toBytes, List.cons_append, List.cons_append, List.cons_append, List.cons_append,
      List.nil_append, decode?, Body.encode_iff_decode?.1 hbody]
    rfl
  · intro h
    match bytes, h with
    | cla :: ins :: p1 :: p2 :: rest, h =>
      obtain ⟨body, hbody, rfl⟩ := Option.map_eq_some_iff.1 h
      exact ⟨rest, Body.encode_iff_decode?.2 hbody, rfl⟩

/-- No two commands have one serialized form. -/
theorem encode_inj {c d : Command} {bytes : Bytes} (hc : c.encode = .ok bytes)
    (hd : d.encode = .ok bytes) : c = d :=
  Option.some.inj ((encode_iff_decode?.1 hc).symm.trans (encode_iff_decode?.1 hd))

end Command

/-- **Serialization is unambiguous and lossless.** A command has a serialized form exactly if it
carries no request data or some that fits its length field, and is read back from it, so that no two
commands have the same one. A command in the shortest case for some request data and an expected
length has a serialized form, from which both are read, empty data as none and more than 65536 bytes
as 65536. -/
theorem serialization_unambiguous :
    (∀ c : Command, (∃ bytes, c.encode = .ok bytes) ↔
      ∀ data ∈ c.body.request, 1 ≤ data.length ∧
        data.length ≤ if c.body.isExtended then 65535 else 255) ∧
    (∀ (c : Command) (bytes : Bytes), c.encode = .ok bytes ↔ Command.decode? bytes = some c) ∧
    (∀ (c d : Command) (bytes : Bytes), c.encode = .ok bytes → d.encode = .ok bytes →
      c = d) ∧
    ∀ (header : Header) (request : Bytes) (expected : Option Nat), request.length ≤ 65535 →
      (∀ ne ∈ expected, 1 ≤ ne) →
      ∃ bytes c, (⟨header, .shortest request expected⟩ : Command).encode = .ok bytes ∧
        Command.decode? bytes = some c ∧ c.header = header ∧
        c.body.request = (if request = [] then none else some request) ∧
        c.body.expectedLength = expected.map (min · 65536) ∧
        (c.body.isExtended = true ↔ 255 < request.length ∨ ∃ ne ∈ expected, 256 < ne) := by
  refine ⟨fun c => ?_, fun c bytes => Command.encode_iff_decode?, fun c d bytes =>
    Command.encode_inj, ?_⟩
  · rw [encode_ok_iff, Body.exists_encode_iff]
    simp only [Body.Fits, Body.maxLc, maxExtendedLc, maxShortLc, Nat.succ_le_iff,
      List.length_pos_iff]
  · intro header request expected hl hpos
    have hfits := Body.fits_shortest hl expected
    obtain ⟨bytes, hbytes⟩ := (encode_ok_iff ⟨header, _⟩).2 (Body.exists_encode_iff.2 hfits)
    refine ⟨bytes, _, hbytes, Command.encode_iff_decode?.1 hbytes, rfl,
      Body.request_shortest_eq request expected, ?_, Body.isExtended_shortest request expected⟩
    cases expected with
    | none => exact Body.expectedLength_shortest_none request
    | some ne => exact Body.expectedLength_shortest request (hpos ne rfl)

/-- Two bytes of data for which 257 are expected need extended length fields, and no other command
has that serialized form. -/
theorem serialization_unambiguous_extended :
    (∃ bytes c,
      (⟨⟨0x00, 0x88, 0x00, 0x00⟩, .shortest [0xCA, 0xFE] (some 257)⟩ : Command).encode =
        .ok bytes ∧
      Command.decode? bytes = some c ∧ c.body.request = some [0xCA, 0xFE] ∧
      c.body.expectedLength = some 257 ∧ c.body.isExtended = true) ∧
    ∀ c : Command, c.encode =
        .ok [0x00, 0x88, 0x00, 0x00, 0x00, 0x00, 0x02, 0xCA, 0xFE, 0x01, 0x01] →
      c = ⟨⟨0x00, 0x88, 0x00, 0x00⟩, .case4Extended [0xCA, 0xFE] 257⟩ := by
  constructor
  · obtain ⟨bytes, c, hencode, hdecode, -, hrequest, hexpected, hext⟩ :=
      serialization_unambiguous.2.2.2 ⟨0x00, 0x88, 0x00, 0x00⟩ [0xCA, 0xFE]
        (some 257) (by decide)
        (by simp)
    exact ⟨bytes, c, hencode, hdecode, hrequest, hexpected,
      hext.2 (.inr ⟨257, rfl, by decide⟩)⟩
  · exact fun c hc => serialization_unambiguous.2.2.1 c _ _ hc (by decide)

end TravelDocument.Apdu
