import TravelDocument.Proofs.Bytes
import TravelDocument.Cipher.Aes

/-!
# AES is lawful

Every step of a round keeps the length of the state and has its inverse among the inverse steps. The
substitution is checked on its table; for `mixColumns` it is enough that doubling is linear
(`double_xor`), since the products of the two polynomials then cancel byte by byte.
`length_schedule` says that the round keys fit the state, and `lawful_cipher` puts this together.
-/

namespace TravelDocument.Aes

/-! ## Substitution -/

theorem getD_toList (a : Array UInt8) (i : Nat) : a.getD i 0 = a.toList.getD i 0 := by
  rw [Array.getD_eq_getD_getElem?, List.getD_eq_getElem?_getD, Array.getElem?_toList]

/-- A table that leads the entries of another one back to all bytes in order undoes it. -/
theorem getD_getD_of_map {s t : Bytes}
    (h : s.map (fun c => t.getD c.toNat 0) = (List.range 256).map UInt8.ofNat) (b : UInt8) :
    t.getD (s.getD b.toNat 0).toNat 0 = b := by
  have hb : b.toNat < 256 := b.toNat_lt
  have hl : s.length = 256 := by simpa using congrArg List.length h
  have hi := congrArg (·[b.toNat]?) h
  simp only [List.getElem?_map, List.getElem?_range hb, Option.map_some, UInt8.ofNat_toNat] at hi
  obtain ⟨c, hc, ht⟩ := Option.map_eq_some_iff.1 hi
  rw [List.getD_eq_getElem?_getD (l := s), hc, Option.getD_some, ht]

/-- The inverse table leads the entries of the table back to all bytes in order. -/
theorem table_inverse : sbox.toList.map (fun c => inverseSbox.toList.getD c.toNat 0) =
    (List.range 256).map UInt8.ofNat := by
  decide +kernel

theorem unsubByte_subByte (b : UInt8) : unsubByte (subByte b) = b := by
  rw [unsubByte, subByte, getD_toList, getD_toList]
  exact getD_getD_of_map (s := sbox.toList) (t := inverseSbox.toList) table_inverse b

@[simp] theorem unsubBytes_subBytes (state : Bytes) : unsubBytes (subBytes state) = state := by
  have h : unsubByte ∘ subByte = id := by
    funext b
    rw [Function.comp_apply, unsubByte_subByte, id]
  rw [unsubBytes, subBytes, List.map_map, h, List.map_id]

@[simp] theorem length_subBytes (state : Bytes) : (subBytes state).length = state.length := by
  rw [subBytes, List.length_map]

@[simp] theorem length_unsubBytes (state : Bytes) : (unsubBytes state).length = state.length := by
  rw [unsubBytes, List.length_map]

/-! ## Rows -/

/-- A block written out. -/
theorem exists_bytes_of_length {b : Bytes} (h : b.length = 16) :
    ∃ a0 a1 a2 a3 b0 b1 b2 b3 c0 c1 c2 c3 d0 d1 d2 d3,
      b = [a0, a1, a2, a3, b0, b1, b2, b3, c0, c1, c2, c3, d0, d1, d2, d3] := by
  match b, h with
  | [a0, a1, a2, a3, b0, b1, b2, b3, c0, c1, c2, c3, d0, d1, d2, d3], _ =>
    exact ⟨a0, a1, a2, a3, b0, b1, b2, b3, c0, c1, c2, c3, d0, d1, d2, d3, rfl⟩

theorem unshiftRows_shiftRows {state : Bytes} (h : state.length = 16) :
    unshiftRows (shiftRows state) = state := by
  obtain ⟨a0, a1, a2, a3, b0, b1, b2, b3, c0, c1, c2, c3, d0, d1, d2, d3, rfl⟩ :=
    exists_bytes_of_length h
  rfl

theorem length_shiftRows {state : Bytes} (h : state.length = 16) :
    (shiftRows state).length = 16 := by
  obtain ⟨a0, a1, a2, a3, b0, b1, b2, b3, c0, c1, c2, c3, d0, d1, d2, d3, rfl⟩ :=
    exists_bytes_of_length h
  rfl

theorem length_unshiftRows {state : Bytes} (h : state.length = 16) :
    (unshiftRows state).length = 16 := by
  obtain ⟨a0, a1, a2, a3, b0, b1, b2, b3, c0, c1, c2, c3, d0, d1, d2, d3, rfl⟩ :=
    exists_bytes_of_length h
  rfl

/-! ## Columns -/

theorem lt_128_iff (b : UInt8) : b < 0x80 ↔ b.toNat.testBit 7 = false := by
  have hb := b.toNat_lt
  rw [UInt8.lt_iff_toNat_lt, Nat.testBit_eq_decide_div_mod_eq]
  simp only [decide_eq_false_iff_not]
  show b.toNat < 128 ↔ ¬ b.toNat / 128 % 2 = 1
  omega

/-- Doubling is linear. -/
theorem double_xor (a b : UInt8) : double (a ^^^ b) = double a ^^^ double b := by
  have h : (if a ^^^ b < 0x80 then (0 : UInt8) else 0x1B) =
      (if a < 0x80 then 0 else 0x1B) ^^^ (if b < 0x80 then 0 else 0x1B) := by
    simp only [lt_128_iff, UInt8.toNat_xor, Nat.testBit_xor]
    cases a.toNat.testBit 7 <;> cases b.toNat.testBit 7 <;> rfl
  rw [double, double, double, UInt8.shiftLeft_xor, h]
  ac_rfl

theorem xor_left_comm (a b c : UInt8) : a ^^^ (b ^^^ c) = b ^^^ (a ^^^ c) := by
  ac_rfl

theorem xor_cancel_left (a b : UInt8) : a ^^^ (a ^^^ b) = b := by
  rw [← UInt8.xor_assoc, UInt8.xor_self, UInt8.zero_xor]

/-- The products of the two polynomials have the coefficients of one. -/
theorem product_coefficients :
    (∀ a, times14 (times2 a) ^^^ times11 a ^^^ times13 a ^^^ times9 (times3 a) = a) ∧
    (∀ a, times14 (times3 a) ^^^ times11 (times2 a) ^^^ times13 a ^^^ times9 a = 0) ∧
    (∀ a, times14 a ^^^ times11 (times3 a) ^^^ times13 (times2 a) ^^^ times9 a = 0) ∧
    ∀ a, times14 a ^^^ times11 a ^^^ times13 (times3 a) ^^^ times9 (times2 a) = 0 := by
  simp only [times2, times3, times9, times11, times13, times14, times8, times4, double_xor]
  refine ⟨fun a => ?_, fun a => ?_, fun a => ?_, fun a => ?_⟩ <;>
    simp only [UInt8.xor_assoc, UInt8.xor_comm, xor_left_comm, xor_cancel_left, UInt8.xor_self,
      UInt8.xor_zero]

theorem times_xor (a b : UInt8) :
    times9 (a ^^^ b) = times9 a ^^^ times9 b ∧ times11 (a ^^^ b) = times11 a ^^^ times11 b ∧
    times13 (a ^^^ b) = times13 a ^^^ times13 b ∧
      times14 (a ^^^ b) = times14 a ^^^ times14 b := by
  simp only [times9, times11, times13, times14, times8, times4, double_xor]
  refine ⟨?_, ?_, ?_, ?_⟩ <;> ac_rfl

/-- The first row of the inverse polynomial takes the first byte out of a mixed column. -/
theorem unmix_row (a b c d : UInt8) :
    times14 (times2 a ^^^ times3 b ^^^ c ^^^ d) ^^^ times11 (a ^^^ times2 b ^^^ times3 c ^^^ d) ^^^
      times13 (a ^^^ b ^^^ times2 c ^^^ times3 d) ^^^ times9 (times3 a ^^^ b ^^^ c ^^^ times2 d) =
        a := by
  obtain ⟨ha, hb, hc, hd⟩ := product_coefficients
  calc
    _ = (times14 (times2 a) ^^^ times11 a ^^^ times13 a ^^^ times9 (times3 a)) ^^^
        (times14 (times3 b) ^^^ times11 (times2 b) ^^^ times13 b ^^^ times9 b) ^^^
        (times14 c ^^^ times11 (times3 c) ^^^ times13 (times2 c) ^^^ times9 c) ^^^
        (times14 d ^^^ times11 d ^^^ times13 (times3 d) ^^^ times9 (times2 d)) := by
      simp only [times_xor]
      ac_rfl
    _ = a := by
      rw [ha, hb, hc, hd, UInt8.xor_zero, UInt8.xor_zero, UInt8.xor_zero]

@[simp] theorem unmixColumns_mixColumns (state : Bytes) :
    unmixColumns (mixColumns state) = state := by
  match state with
  | a :: b :: c :: d :: rest =>
    rw [mixColumns, unmixColumns, unmixColumns_mixColumns rest]
    simp only [List.cons.injEq, and_true]
    -- the other rows are the first one rotated
    refine ⟨unmix_row a b c d, (Eq.trans ?_ (unmix_row b c d a)),
      (Eq.trans ?_ (unmix_row c d a b)), (Eq.trans ?_ (unmix_row d a b c))⟩ <;> ac_nf
  | [] | [_] | [_, _] | [_, _, _] => rfl

theorem length_mixColumns (state : Bytes) : (mixColumns state).length = state.length := by
  match state with
  | a :: b :: c :: d :: rest => simp only [mixColumns, List.length_cons, length_mixColumns rest]
  | [] | [_] | [_, _] | [_, _, _] => rfl

theorem length_unmixColumns (state : Bytes) : (unmixColumns state).length = state.length := by
  match state with
  | a :: b :: c :: d :: rest => simp only [unmixColumns, List.length_cons, length_unmixColumns rest]
  | [] | [_] | [_, _] | [_, _, _] => rfl

/-! ## Rounds -/

theorem length_xor_key {key state : Bytes} (hk : key.length = 16) (h : state.length = 16) :
    (Bytes.xor key state).length = 16 := by
  rw [Bytes.length_xor, hk, h, Nat.min_self]

theorem length_substituted {state : Bytes} (h : state.length = 16) :
    (shiftRows (subBytes state)).length = 16 :=
  length_shiftRows (by rw [length_subBytes, h])

theorem length_rounds {keys : List Bytes} (hk : ∀ k ∈ keys, k.length = 16) {state : Bytes}
    (h : state.length = 16) : (rounds keys state).length = 16 := by
  induction keys generalizing state with
  | nil => exact h
  | cons key keys ih =>
    have hkey := hk key List.mem_cons_self
    have hs := length_substituted h
    cases keys with
    | nil => exact length_xor_key hkey hs
    | cons next keys =>
      exact ih (fun k hm => hk k (List.mem_cons_of_mem _ hm))
        (length_xor_key hkey (by rw [length_mixColumns, hs]))

theorem length_unrounds {keys : List Bytes} (hk : ∀ k ∈ keys, k.length = 16) {state : Bytes}
    (h : state.length = 16) : (unrounds keys state).length = 16 := by
  induction keys with
  | nil => exact h
  | cons key keys ih =>
    have hkey := hk key List.mem_cons_self
    have hr := ih fun k hm => hk k (List.mem_cons_of_mem _ hm)
    cases keys with
    | nil =>
      rw [unrounds, length_unsubBytes]
      exact length_unshiftRows (length_xor_key hkey h)
    | cons next keys =>
      rw [unrounds, length_unsubBytes]
      · exact length_unshiftRows (by rw [length_unmixColumns, length_xor_key hkey hr])
      · simp

theorem unrounds_rounds {keys : List Bytes} (hk : ∀ k ∈ keys, k.length = 16) {state : Bytes}
    (h : state.length = 16) : unrounds keys (rounds keys state) = state := by
  induction keys generalizing state with
  | nil => rfl
  | cons key keys ih =>
    have hkey := hk key List.mem_cons_self
    have hs := length_substituted h
    have hu : unshiftRows (shiftRows (subBytes state)) = subBytes state :=
      unshiftRows_shiftRows (by rw [length_subBytes, h])
    cases keys with
    | nil =>
      rw [rounds, unrounds, Bytes.xor_xor_cancel (hkey.trans hs.symm), hu, unsubBytes_subBytes]
    | cons next keys =>
      have hm : (mixColumns (shiftRows (subBytes state))).length = 16 := by
        rw [length_mixColumns, hs]
      rw [rounds, unrounds, ih (fun k hm => hk k (List.mem_cons_of_mem _ hm))
        (length_xor_key hkey hm),
        Bytes.xor_xor_cancel (hkey.trans hm.symm), unmixColumns_mixColumns, hu, unsubBytes_subBytes]
      all_goals simp

theorem lawful_ofSchedule {keys : List Bytes} (hk : ∀ k ∈ keys, k.length = 16) :
    (ofSchedule keys).Lawful where
  pos := show 0 < 16 by decide
  length_encrypt block h := by
    cases keys with
    | nil => exact h
    | cons key keys =>
      exact length_rounds (fun k hm => hk k (List.mem_cons_of_mem _ hm))
        (length_xor_key (hk key List.mem_cons_self) h)
  length_decrypt block h := by
    cases keys with
    | nil => exact h
    | cons key keys =>
      exact length_xor_key (hk key List.mem_cons_self)
        (length_unrounds (fun k hm => hk k (List.mem_cons_of_mem _ hm)) h)
  decrypt_encrypt block h := by
    cases keys with
    | nil => rfl
    | cons key keys =>
      -- the first key is only added in, the rounds undo each other
      have hkey := hk key List.mem_cons_self
      show Bytes.xor key (unrounds keys (rounds keys (Bytes.xor key block))) = block
      rw [unrounds_rounds (fun k hm => hk k (List.mem_cons_of_mem _ hm)) (length_xor_key hkey h),
        Bytes.xor_xor_cancel (hkey.trans h.symm)]

/-! ## Key schedule -/

theorem length_rotateWord (w : Bytes) : (rotateWord w).length = w.length := by
  cases w <;> simp [rotateWord]

/-- Extending a schedule of at least `nk` words keeps its words at four bytes. -/
theorem length_extendSchedule {nk : Nat} (hnk : 0 < nk) (n : Nat) {w : Array Bytes}
    (hs : nk ≤ w.size) (hw : ∀ x ∈ w, x.length = 4) :
    ∀ x ∈ extendSchedule nk n w, x.length = 4 := by
  induction n generalizing w with
  | zero => exact hw
  | succ n ih =>
    -- a word is made of the one before it and the one `nk` places back
    have entry : ∀ i < w.size, (w.getD i []).length = 4 := by
      intro i hi
      rw [Array.getD_eq_getD_getElem?, Array.getElem?_eq_getElem hi]
      exact hw _ (Array.getElem_mem hi)
    have last := entry (w.size - 1) (by omega)
    have first := entry (w.size - nk) (by omega)
    rw [extendSchedule]
    refine ih (by rw [Array.size_push]; omega) fun x hx => ?_
    rcases Array.mem_push.1 hx with hx | rfl
    · exact hw x hx
    · rw [Bytes.length_xor, first]
      split
      · rw [Bytes.length_xor, length_subBytes, length_rotateWord, last]
        rfl
      · split
        · rw [length_subBytes, last]
          rfl
        · rw [last]
          rfl

theorem length_words (key : Bytes) :
    (words key).length = key.length / 4 ∧ ∀ w ∈ words key, w.length = 4 := by
  match key with
  | a :: b :: c :: d :: rest =>
    obtain ⟨hl, hw⟩ := length_words rest
    refine ⟨?_, ?_⟩
    · rw [words, List.length_cons, hl]
      simp only [List.length_cons]
      omega
    · intro w hm
      rcases List.mem_cons.1 hm with rfl | hm
      · rfl
      · exact hw w hm
  | [] | [_] | [_, _] | [_, _, _] => simp [words]

theorem length_groupWords {ws : List Bytes} (h : ∀ w ∈ ws, w.length = 4) :
    ∀ k ∈ groupWords ws, k.length = 16 := by
  match ws with
  | a :: b :: c :: d :: rest =>
    simp only [List.forall_mem_cons] at h
    obtain ⟨ha, hb, hc, hd, hr⟩ := h
    intro k hk
    rcases List.mem_cons.1 hk with rfl | hk
    · simp only [List.length_append, ha, hb, hc, hd]
    · exact length_groupWords hr k hk
  | [] | [_] | [_, _] | [_, _, _] => simp [groupWords]

/-- The round keys of any key of at least four bytes fit the state. -/
theorem length_schedule {key : Bytes} (h : 4 ≤ key.length) :
    ∀ k ∈ schedule key, k.length = 16 := by
  obtain ⟨hl, hw⟩ := length_words key
  refine length_groupWords fun w hm => ?_
  have hnk : 0 < key.length / 4 := by omega
  refine length_extendSchedule hnk _ ?_ ?_ w (by simpa using hm)
  · exact Nat.le_of_eq (by rw [List.size_toArray, hl])
  · simpa using hw

/-- **AES is lawful under every key.** -/
theorem lawful_cipher {key : Bytes} (h : 4 ≤ key.length) : (cipher key).Lawful :=
  lawful_ofSchedule (length_schedule h)

end TravelDocument.Aes
