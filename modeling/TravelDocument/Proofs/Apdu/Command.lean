import TravelDocument.Apdu.Command

/-!
# Bodies and the shortest one

A body has a serialized form, its `layout`, exactly if it `Fits` (`encode_eq_ok_iff`). The shortest
body holds the request data and the expected length it was made for (`request_shortest_eq`,
`expectedLength_shortest`), and fits if the data is no more than an extended length field can tell
(`fits_shortest`). What a command expects is between 1 and 65536 bytes (`expectedLength_bounds`). If
there are at most 255 bytes of data and 256 are expected then a shortest body makes a short command,
`IsShort` (`isShort_shortest`).
-/

namespace TravelDocument.Apdu

namespace Body

theorem request_shortest {request : Bytes} (h : request ≠ []) (expected : Option Nat) :
    (shortest request expected).request = some request := by
  have he : request.isEmpty = false := by simpa using h
  simp only [shortest, he]
  split <;> simp_all [Body.request]

theorem eq_of_mem_request_shortest {request data : Bytes} {expected : Option Nat}
    (h : data ∈ (shortest request expected).request) : data = request := by
  by_cases hr : request = []
  · subst hr
    simp only [shortest, List.isEmpty_nil] at h
    split at h <;> simp_all [Body.request]
  · rw [request_shortest hr] at h
    exact (Option.mem_some_iff.1 h).symm

theorem shortNe_bounds (le : UInt8) : 0 < shortNe le ∧ shortNe le ≤ maxExtendedNe := by
  have := le.toNat_lt
  rw [shortNe]
  split
  · decide
  · rename_i hle
    refine ⟨Nat.pos_of_ne_zero fun h => hle (UInt8.toNat.inj h), ?_⟩
    simp only [maxExtendedNe]
    omega

theorem extendedNe_bounds (le : UInt16) :
    0 < extendedNe le ∧ extendedNe le ≤ maxExtendedNe := by
  have := le.toNat_lt
  rw [extendedNe]
  split
  · decide
  · rename_i hle
    refine ⟨Nat.pos_of_ne_zero fun h => hle (UInt16.toNat.inj h), ?_⟩
    simp only [maxExtendedNe]
    omega

theorem expectedLength_bounds {body : Body} {ne : Nat} (h : body.expectedLength = some ne) :
    0 < ne ∧ ne ≤ maxExtendedNe := by
  cases body with
  | case1 | case3Short _ | case3Extended _ => cases h
  | case2Short le | case4Short _ le =>
    cases h
    exact shortNe_bounds le
  | case2Extended le | case4Extended _ le =>
    cases h
    exact extendedNe_bounds le

theorem request_shortest_nil (expected : Option Nat) : (shortest [] expected).request = none := by
  simp only [shortest, List.isEmpty_nil]
  split <;> first | rfl | contradiction

theorem request_shortest_eq (request : Bytes) (expected : Option Nat) :
    (shortest request expected).request = if request = [] then none else some request := by
  split
  · rename_i h
    rw [h, request_shortest_nil]
  · rename_i h
    exact request_shortest h expected

/-- The extended cases are those of long data and of long answers. -/
theorem isExtended_shortest (request : Bytes) (expected : Option Nat) :
    (shortest request expected).isExtended = true ↔
      maxShortLc < request.length ∨ ∃ ne ∈ expected, maxShortNe < ne := by
  have hx : (maxShortLc < request.length ∨ ∃ ne ∈ expected, maxShortNe < ne) ↔
      (decide (maxShortLc < request.length) || expected.any (maxShortNe < ·)) = true := by
    cases expected <;> simp
  rw [hx]
  cases hextended : (decide (maxShortLc < request.length) || expected.any (maxShortNe < ·)) with
  | false =>
    cases he : request.isEmpty with
    | true => cases expected <;> simp only [shortest, he, hextended, isExtended]
    | false => cases expected <;> simp only [shortest, he, hextended, isExtended]
  | true =>
    cases he : request.isEmpty with
    | true =>
      obtain rfl := List.isEmpty_iff.1 he
      cases expected with
      | none => simp at hextended
      | some ne => simp only [shortest, he, hextended, isExtended]
    | false => cases expected <;> simp only [shortest, he, hextended, isExtended]

/-- A short Le field holds the expected lengths up to 256. -/
theorem shortNe_shortLe {ne : Nat} (h : 0 < ne) (hs : ne ≤ maxShortNe) :
    shortNe (shortLe ne) = ne := by
  simp only [maxShortNe] at hs
  rw [shortLe]
  split
  · rename_i hle
    exact Nat.le_antisymm hle hs
  · rename_i hlt
    simp only [maxShortNe] at hlt
    have hto : (UInt8.ofNat ne).toNat = ne := by
      rw [UInt8.toNat_ofNat', Nat.mod_eq_of_lt (by omega)]
    have hne : UInt8.ofNat ne ≠ 0 := by
      intro hz
      rw [hz] at hto
      exact absurd hto (Nat.ne_of_lt h)
    rw [shortNe, if_neg hne, hto]

/-- An extended Le field holds the expected lengths up to 65536, and stands for that if there are
more. -/
theorem extendedNe_extendedLe {ne : Nat} (h : 0 < ne) :
    extendedNe (extendedLe ne) = min ne maxExtendedNe := by
  rw [extendedLe]
  split
  · rename_i hle
    rw [Nat.min_eq_right hle]
    rfl
  · rename_i hlt
    have hto : (UInt16.ofNat ne).toNat = ne := by
      simp only [maxExtendedNe] at hlt
      rw [UInt16.toNat_ofNat', Nat.mod_eq_of_lt (by omega)]
    have hne : UInt16.ofNat ne ≠ 0 := by
      intro hz
      rw [hz] at hto
      exact absurd hto (Nat.ne_of_lt h)
    rw [extendedNe, if_neg hne, hto, Nat.min_eq_left (by omega)]

/-- **The shortest body expects what it was made for**, and at most 65536 bytes. -/
theorem expectedLength_shortest (request : Bytes) {ne : Nat} (h : 0 < ne) :
    (shortest request (some ne)).expectedLength = some (min ne maxExtendedNe) := by
  cases hx : (decide (maxShortLc < request.length) || (some ne).any (maxShortNe < ·)) with
  | false =>
    have hs : ne ≤ maxShortNe := by
      rw [Bool.or_eq_false_iff, Option.any_some, decide_eq_false_iff_not, decide_eq_false_iff_not]
        at hx
      omega
    have hmin : min ne maxExtendedNe = ne := Nat.min_eq_left (Nat.le_trans hs (by decide))
    cases he : request.isEmpty with
    | true => simp only [shortest, he, hx, expectedLength, shortNe_shortLe h hs, hmin]
    | false => simp only [shortest, he, hx, expectedLength, shortNe_shortLe h hs, hmin]
  | true =>
    cases he : request.isEmpty with
    | true => simp only [shortest, he, hx, expectedLength, extendedNe_extendedLe h]
    | false => simp only [shortest, he, hx, expectedLength, extendedNe_extendedLe h]

theorem expectedLength_shortest_none (request : Bytes) :
    (shortest request none).expectedLength = none := by
  simp only [shortest]
  split <;> simp_all [expectedLength]

/-! ## Bodies that have a serialized form -/

theorem checkRequest_ok_iff {maximum : Nat} {data : Bytes} :
    checkRequest maximum data = .ok () ↔ data ≠ [] ∧ data.length ≤ maximum := by
  rw [checkRequest]
  split
  · simp_all
  · split
    · simp_all
    · simp_all

/-- The largest number of bytes of request data. -/
def maxLc (body : Body) : Nat :=
  if body.isExtended then maxExtendedLc else maxShortLc

theorem maxLc_le (body : Body) : body.maxLc ≤ maxExtendedLc := by
  rw [maxLc]
  split <;> decide

/-- The request data, if there is some, is not empty and fits its length field. -/
def Fits (body : Body) : Prop :=
  ∀ data ∈ body.request, data ≠ [] ∧ data.length ≤ body.maxLc

/-- The serialized form of a body that fits. -/
def layout : Body → Bytes
  | .case1 => []
  | .case2Short le => [le]
  | .case2Extended le => 0x00 :: Bytes.be 2 le.toNat
  | .case3Short data => UInt8.ofNat data.length :: data
  | .case3Extended data => 0x00 :: (Bytes.be 2 data.length ++ data)
  | .case4Short data le => UInt8.ofNat data.length :: (data ++ [le])
  | .case4Extended data le => 0x00 :: (Bytes.be 2 data.length ++ data ++ Bytes.be 2 le.toNat)

theorem checkRequest_bind_eq_ok {maximum : Nat} {data bytes out : Bytes} :
    (do checkRequest maximum data; return out) = .ok bytes ↔
      (data ≠ [] ∧ data.length ≤ maximum) ∧ bytes = out := by
  rw [← checkRequest_ok_iff]
  cases checkRequest maximum data with
  | error e => simp [bind, Except.bind]
  | ok => simp [bind, Except.bind, pure, Except.pure, eq_comm]

theorem encode_eq_ok_iff {body : Body} {bytes : Bytes} :
    body.encode = .ok bytes ↔ body.Fits ∧ bytes = body.layout := by
  cases body with
  | case1 | case2Short _ | case2Extended _ =>
    simp [encode, Fits, request, layout, eq_comm]
  | case3Short _ | case3Extended _ | case4Short _ _ | case4Extended _ _ =>
    rw [encode, checkRequest_bind_eq_ok]
    simp [Fits, request, layout, maxLc, isExtended]

theorem exists_encode_iff {body : Body} : (∃ bytes, body.encode = .ok bytes) ↔ body.Fits := by
  simp only [encode_eq_ok_iff, exists_and_left, exists_eq, and_true]

theorem checkRequest_bind_eq_emptyData {maximum : Nat} {data out : Bytes} :
    (do checkRequest maximum data; return out) = .error .emptyData ↔ data = [] := by
  by_cases hd : data = []
  · subst hd
    exact iff_of_true rfl rfl
  · refine iff_of_false ?_ hd
    have he : data.isEmpty = false := by simpa using hd
    rw [checkRequest, he]
    split
    · contradiction
    · split <;> exact nofun

/-- Only a body of a case with request data can lack it. -/
theorem request_of_encode_eq_emptyData {body : Body} (h : body.encode = .error .emptyData) :
    body.request = some [] := by
  cases body with
  | case1 | case2Short _ | case2Extended _ => cases h
  | case3Short _ | case3Extended _ | case4Short _ _ | case4Extended _ _ =>
    exact congrArg some (checkRequest_bind_eq_emptyData.1 h)

theorem fits_shortest {request : Bytes} (h : request.length ≤ maxExtendedLc)
    (expected : Option Nat) :
    (shortest request expected).Fits := by
  intro data hdata
  obtain rfl := eq_of_mem_request_shortest hdata
  refine ⟨?_, ?_⟩
  · rintro rfl
    rw [request_shortest_nil] at hdata
    cases hdata
  · rw [maxLc]
    split
    · exact h
    · rename_i hshort
      rw [isExtended_shortest, not_or] at hshort
      exact Nat.le_of_not_lt hshort.1

end Body

theorem encode_ok_iff (c : Command) : (∃ bytes, c.encode = .ok bytes) ↔
    ∃ bytes, c.body.encode = .ok bytes := by
  rw [Command.encode]
  cases c.body.encode with
  | error e => simp [bind, Except.bind]
  | ok b => simp [bind, Except.bind, pure, Except.pure]

/-- A command with a shortest body does not lack request data. -/
theorem encode_shortest_ne_emptyData (header : Header) (request : Bytes) (expected : Option Nat) :
    (⟨header, .shortest request expected⟩ : Command).encode ≠ .error .emptyData := by
  intro h
  rw [Command.encode] at h
  have hbody : (Body.shortest request expected).encode = .error .emptyData := by
    cases hb : (Body.shortest request expected).encode with
    | error e =>
      rw [hb] at h
      cases h
      rfl
    | ok b =>
      rw [hb] at h
      cases h
  have hrequest := Body.request_of_encode_eq_emptyData hbody
  rw [Body.request_shortest_eq] at hrequest
  split at hrequest
  · cases hrequest
  · rename_i hne
    exact hne (Option.some.inj hrequest)

/-- A shortest body with an expected length has a serialized form exactly if its data fits an
extended length field. -/
theorem encode_shortest_iff {request : Bytes} (h : request ≠ []) (header : Header) (ne : Nat) :
    (∃ bytes, (⟨header, .shortest request (some ne)⟩ : Command).encode = .ok bytes) ↔
      request.length ≤ maxExtendedLc := by
  rw [encode_ok_iff, Body.exists_encode_iff]
  constructor
  · intro hfits
    have hl := (hfits request (Body.request_shortest h _)).2
    exact Nat.le_trans hl (Body.maxLc_le _)
  · intro hl
    exact Body.fits_shortest hl _

/-! ## Short commands -/

namespace Body

theorem shortNe_le (le : UInt8) : shortNe le ≤ maxShortNe := by
  have := le.toNat_lt
  rw [shortNe]
  split
  · exact Nat.le_refl _
  · simp only [maxShortNe]
    omega

theorem expectedLength_le_of_short {body : Body} (h : body.isExtended = false) :
    ∀ ne ∈ body.expectedLength, ne ≤ maxShortNe := by
  intro ne hne
  cases body with
  | case1 | case3Short _ => cases hne
  | case2Short le | case4Short _ le =>
    cases hne
    exact shortNe_le le
  | case2Extended _ | case3Extended _ | case4Extended _ _ => cases h

/-- The serialized form is at most Lc, the data and Le. -/
theorem length_layout_le {body : Body} (h : body.isExtended = false) (hf : body.Fits) :
    body.layout.length ≤ 1 + maxShortLc + 1 := by
  have hdata : ∀ data ∈ body.request, data.length ≤ maxShortLc := by
    intro data hdata
    have hl := (hf data hdata).2
    rwa [maxLc, if_neg (by simp [h])] at hl
  cases body with
  | case1 | case2Short _ =>
    simp only [layout, List.length_nil, List.length_singleton]
    omega
  | case3Short data =>
    have := hdata data rfl
    simp only [layout, List.length_cons]
    omega
  | case4Short data _ =>
    have := hdata data rfl
    simp only [layout, List.length_cons, List.length_append, List.length_nil]
    omega
  | case2Extended _ | case3Extended _ | case4Extended _ _ => cases h

end Body

/-- A command in a short case with a serialized form: header, Lc, up to 255 bytes of data, and
Le. -/
def Command.IsShort (c : Command) : Prop :=
  c.body.isExtended = false ∧ ∃ bytes, c.encode = .ok bytes ∧ bytes.length ≤ 261

theorem isShort_shortest {request : Bytes} (hr : request.length ≤ maxShortLc)
    {expected : Option Nat} (he : ∀ ne ∈ expected, ne ≤ maxShortNe) (header : Header) :
    (⟨header, .shortest request expected⟩ : Command).IsShort := by
  have hextended : (Body.shortest request expected).isExtended = false := by
    rw [Bool.eq_false_iff, Ne, Body.isExtended_shortest]
    rintro (h | ⟨ne, hne, h⟩)
    · exact Nat.not_lt.2 hr h
    · exact Nat.not_lt.2 (he ne hne) h
  have hfits : (Body.shortest request expected).Fits :=
    Body.fits_shortest (Nat.le_trans hr (by decide)) expected
  have hencode := Body.encode_eq_ok_iff.2 ⟨hfits, rfl⟩
  refine ⟨hextended, header.toBytes ++ (Body.shortest request expected).layout, ?_, ?_⟩
  · rw [Command.encode, hencode]
    rfl
  · rw [List.length_append]
    exact Nat.add_le_add_left (Body.length_layout_le hextended hfits) 4

end TravelDocument.Apdu
