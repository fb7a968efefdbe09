import Mathlib.Data.Nat.Find
import TravelDocument.Proofs.Apdu.Command
import TravelDocument.Proofs.Dialogue.Completion
import TravelDocument.Proofs.File.Length
import TravelDocument.Proofs.SecureMessaging.Chip

/-!
# Reading a file from an honest card

`Reply` is what READ BINARY is answered by a card that holds a file, at offsets within the file.
Over a link that gives such answers every READ BINARY brings in the file's next bytes, at least one
of them (`readBinary_run`), so the loop reaches the end of the contents with exactly these
(`readRest_run`), and the first bytes have told where that is (`readSelected_run`).
-/

namespace TravelDocument.File

open DataObject

/-! ## What a card with a file answers -/

/-- The longest piece from the front of some bytes that makes a data object of at most `ne`
bytes. -/
structure IsLongestPiece (bytes : Bytes) (ne : Nat) (piece : Bytes) : Prop where
  starts : piece <+: bytes
  fits : (encode 0x53 piece).length ≤ ne
  longest : ∀ other : Bytes, other <+: bytes → (encode 0x53 other).length ≤ ne →
    other.length ≤ piece.length

/-- The answer to a READ BINARY within a file, for an offset in the header and for one in the data.
No more than 65536 bytes can be asked for. The class of the instruction does not matter. -/
inductive Reply (file : Bytes) : Instruction → Apdu.Response → Prop
  | short {cla p1 p2 : UInt8} {ne : Nat} : p1.toNat < 0x80 →
    256 * p1.toNat + p2.toNat < file.length → ne ≤ 65536 →
    Reply file ⟨⟨cla, 0xB0, p1, p2⟩, none, some ne⟩
      ⟨(file.drop (256 * p1.toNat + p2.toNat)).take ne, .success⟩
  | long {cla : UInt8} {offset ne : Nat} {piece : Bytes} : offset < file.length → ne ≤ 65536 →
    IsLongestPiece (file.drop offset) ne piece →
    Reply file ⟨⟨cla, 0xB1, 0x00, 0x00⟩, some (encode 0x54 (Bytes.minimal offset)), some ne⟩
      ⟨encode 0x53 piece, .success⟩

variable {σ : Type} {card : Card σ} {file : Bytes} {ready : Link σ → Prop}

/-- A link that is `ready` answers every READ BINARY as a card with the file does, and stays so. No
byte string in memory is longer than the request data is assumed to be. -/
def Serves (card : Card σ) (file : Bytes) (ready : Link σ → Prop) : Prop :=
  ∀ link, ready link → ∀ command response, command.header.cla = 0x00 →
    (∀ data ∈ command.body.request, data.length < 2 ^ 63) →
    Reply file (Instruction.ofCommand command) response →
    ∃ after, link.transmit card command = (.ok response, after) ∧ ready after

/-- The longest piece, found by trying. -/
def longestPiece (bytes : Bytes) (ne : Nat) : Bytes :=
  bytes.take (Nat.findGreatest (fun k => (encode 0x53 (bytes.take k)).length ≤ ne) bytes.length)

/-- There is a longest piece if there is room for tag and length. -/
theorem isLongestPiece_longestPiece (bytes : Bytes) {ne : Nat} (h : 2 ≤ ne) :
    IsLongestPiece bytes ne (longestPiece bytes ne) := by
  let Fits : Nat → Prop := fun k => (encode 0x53 (bytes.take k)).length ≤ ne
  have hzero : Fits 0 := by
    show (encode 0x53 []).length ≤ ne
    rw [length_encode (by decide)]
    exact h
  have hle : Nat.findGreatest Fits bytes.length ≤ bytes.length := Nat.findGreatest_le _
  have hspec : Fits (Nat.findGreatest Fits bytes.length) :=
    Nat.findGreatest_spec (Nat.zero_le _) hzero
  refine ⟨List.take_prefix _ _, hspec, ?_⟩
  intro other hother hfits
  rw [longestPiece, List.length_take, Nat.min_eq_left hle]
  have hfits' : Fits other.length := by
    show (encode 0x53 (bytes.take other.length)).length ≤ ne
    rwa [← List.prefix_iff_eq_take.1 hother]
  exact Nat.le_findGreatest hother.length_le hfits'

namespace IsLongestPiece

variable {bytes piece : Bytes} {ne : Nat}

/-- The piece is not empty if there is room for one byte and there is one. -/
theorem ne_nil (h : IsLongestPiece bytes ne piece) (hb : bytes ≠ []) (hne : 3 ≤ ne) :
    piece ≠ [] := by
  obtain ⟨b, rest, rfl⟩ := List.exists_cons_of_ne_nil hb
  have hone : (encode 0x53 [b]).length ≤ ne := by
    rw [length_encode (by decide)]
    exact hne
  have := h.longest [b] ⟨rest, rfl⟩ hone
  rw [List.length_singleton] at this
  exact List.ne_nil_of_length_pos this

theorem unique {other : Bytes} (h : IsLongestPiece bytes ne piece)
    (h' : IsLongestPiece bytes ne other) :
    piece = other := by
  have hl : piece.length = other.length :=
    Nat.le_antisymm (h'.longest _ h.starts h.fits) (h.longest _ h'.starts h'.fits)
  exact (List.prefix_of_prefix_length_le h.starts h'.starts (Nat.le_of_eq hl)).eq_of_length hl

/-- There has to be room for tag and length. -/
theorem two_le (h : IsLongestPiece bytes ne piece) : 2 ≤ ne := by
  have hfits := h.fits
  have hlength : 0 < (encodeLength piece.length).length := by
    rw [encodeLength]
    split <;> exact Nat.succ_pos _
  rw [length_encode (by decide), size] at hfits
  omega

theorem length_le (h : IsLongestPiece bytes ne piece) : piece.length ≤ ne := by
  have := h.fits
  rw [length_encode (by decide)] at this
  exact Nat.le_trans (le_size _) this

end IsLongestPiece

/-- What is wrapped in a data object is taken out of it. -/
theorem unwrapContents_encode {piece : Bytes} (h : piece.length < 2 ^ 64) :
    unwrapContents (encode 0x53 piece) = .ok piece := by
  have htag := endsItself_of_lt (show 0x53 < 256 by decide) (by decide)
    (encodeLength piece.length ++ piece)
  have hlength := (isLengthField_encodeLength h).decode piece
  rw [← List.append_assoc] at htag
  rw [unwrapContents, encode, htag]
  simp only [contentsTag, ne_eq, not_true_eq_false, ↓reduceIte, hlength, Nat.lt_irrefl,
    List.take_length]

/-! ## One READ BINARY -/

/-- A READ BINARY that is answered with success ends the attempts. -/
theorem readUncorrected_run {link after : Link σ} {offset length : Nat} {data chunk : Bytes}
    (hl : 0 < length) (ht : link.transmit card (readCommand offset length) =
      (.ok ⟨data, .success⟩, after))
    (hd : readData offset data = .ok chunk) :
    (readUncorrected offset length).run card link = (.ok chunk, after) := by
  obtain ⟨n, rfl⟩ : ∃ n, length = n + 1 := ⟨length - 1, by omega⟩
  simp only [readUncorrected, Dialogue.transmit, Dialogue.bind_send, Dialogue.run, ht,
    Dialogue.ofExcept, Dialogue.bind_done, ↓reduceIte, hd]

/-- The length that is asked for in one READ BINARY. -/
def requestedLength (config : SessionConfig) (length : Nat) : Nat :=
  if config.extendedLength then length else min length Apdu.maxShortNe

theorem requestedLength_pos (config : SessionConfig) {length : Nat} (h : 0 < length) :
    0 < requestedLength config length := by
  rw [requestedLength]
  split
  · exact h
  · exact Nat.lt_min.2 ⟨h, by decide⟩

/-- An offset that fits in the header. -/
theorem reply_readCommand_short {offset length : Nat} (ho : offset < file.length) (hl : 0 < length)
    (hs : offset ≤ maxShortOffset) :
    Reply file (Instruction.ofCommand (readCommand offset length))
      ⟨(file.drop offset).take (min length Apdu.maxExtendedNe), .success⟩ := by
  have hs' : offset < 0x8000 := Nat.lt_succ_of_le hs
  have hp1 : (UInt8.ofNat (offset / 256)).toNat = offset / 256 := by
    rw [UInt8.toNat_ofNat', Nat.mod_eq_of_lt (by omega)]
  have hp2 : (UInt8.ofNat offset).toNat = offset % 256 := UInt8.toNat_ofNat'
  have hoffset : 256 * (UInt8.ofNat (offset / 256)).toNat + (UInt8.ofNat offset).toNat =
      offset := by
    rw [hp1, hp2]
    omega
  have hi : Instruction.ofCommand (readCommand offset length) =
      ⟨⟨0x00 ||| 0x0C, 0xB0, UInt8.ofNat (offset / 256), UInt8.ofNat offset⟩, none,
        some (min length Apdu.maxExtendedNe)⟩ := by
    rw [readCommand, if_pos hs, Instruction.ofCommand, Apdu.Command.make,
      Apdu.Body.request_shortest_nil, Apdu.Body.expectedLength_shortest _ hl]
    rfl
  have h : Reply file
      ⟨⟨0x00 ||| 0x0C, 0xB0, UInt8.ofNat (offset / 256), UInt8.ofNat offset⟩, none,
        some (min length Apdu.maxExtendedNe)⟩ _ :=
    .short (by omega) (by omega) (Nat.min_le_right _ _)
  rwa [hoffset, ← hi] at h

/-- An offset that does not. There is room for at least one byte. -/
theorem reply_readCommand_long {offset length : Nat} (ho : offset < file.length) (hl : 0 < length)
    (hs : ¬ offset ≤ maxShortOffset) : ∃ piece, piece ≠ [] ∧ piece <+: file.drop offset ∧
      piece.length < 2 ^ 64 ∧
      Reply file (Instruction.ofCommand (readCommand offset length))
        ⟨encode 0x53 piece, .success⟩ := by
  -- room is made for tag and length, so at least one byte of the file fits
  have hwrapped : 3 ≤ wrappedLength length := by
    rw [wrappedLength]
    simp only [Apdu.maxShortNe]
    split
    · omega
    · split <;> omega
  have hne : 3 ≤ min (wrappedLength length) Apdu.maxExtendedNe :=
    Nat.le_min.2 ⟨hwrapped, by decide⟩
  have hdata : encode offsetTag (Bytes.minimal offset) ≠ [] := by
    apply List.ne_nil_of_length_pos
    rw [length_encode (by decide), size]
    omega
  have hi : Instruction.ofCommand (readCommand offset length) =
      ⟨⟨0x00 ||| 0x0C, 0xB1, 0x00, 0x00⟩, some (encode 0x54 (Bytes.minimal offset)),
        some (min (wrappedLength length) Apdu.maxExtendedNe)⟩ := by
    rw [readCommand, if_neg hs, Instruction.ofCommand, Apdu.Command.make,
      Apdu.Body.request_shortest hdata, Apdu.Body.expectedLength_shortest _ (by omega)]
    rfl
  have hp := isLongestPiece_longestPiece (file.drop offset) (Nat.le_trans (by decide) hne)
  refine ⟨_, hp.ne_nil ?_ hne, hp.starts, ?_, ?_⟩
  · rw [ne_eq, List.drop_eq_nil_iff]
    omega
  · exact Nat.lt_of_le_of_lt (Nat.le_trans hp.length_le (Nat.min_le_right _ _)) (by decide)
  · rw [hi]
    exact .long ho (Nat.min_le_right _ _) hp

/-- An offset of 64 bits makes for short request data. -/
theorem length_request_readCommand {offset : Nat} (ho : offset < UInt64.size) (length : Nat) :
    ∀ data ∈ (readCommand offset length).body.request, data.length < 2 ^ 63 := by
  intro data hdata
  have hminimal : (Bytes.minimal offset).length ≤ 8 := Bytes.length_minimal_le ho (by decide)
  rw [readCommand] at hdata
  split at hdata
  · rw [Apdu.Body.eq_of_mem_request_shortest hdata]
    decide
  · rw [Apdu.Body.eq_of_mem_request_shortest hdata]
    have := length_encode_le (show offsetTag < 256 by decide) (Bytes.minimal offset) (by omega)
    omega

/-- **Every READ BINARY brings in the next bytes of the file**, at least one of them, and at an
offset in the header as many as were asked for. -/
theorem readBinary_run (hs : Serves card file ready) (config : SessionConfig) {link : Link σ}
    (hr : ready link) {offset length : Nat} (ho : offset < file.length) (ho' : offset < UInt64.size)
    (hl : 0 < length) : ∃ chunk after,
      (readBinary config offset length).run card link = (.ok chunk, after) ∧ ready after ∧
      chunk ≠ [] ∧ chunk <+: file.drop offset ∧
      (offset ≤ maxShortOffset → chunk =
        (file.drop offset).take (min (requestedLength config length) Apdu.maxExtendedNe)) := by
  have hpos := requestedLength_pos config hl
  have hclass : (readCommand offset (requestedLength config length)).header.cla = 0x00 := by
    rw [readCommand]
    split <;> rfl
  -- up to 7FFF the chunk is the answer; above it, the answer wraps the chunk in an object
  by_cases hshort : offset ≤ maxShortOffset
  · obtain ⟨after, ht, hready⟩ := hs link hr _ _ hclass (length_request_readCommand ho' _)
      (reply_readCommand_short ho hpos hshort)
    refine ⟨_, after, readUncorrected_run hpos ht (if_pos hshort), hready, ?_,
      List.take_prefix _ _, fun _ => rfl⟩
    apply List.ne_nil_of_length_pos
    rw [List.length_take, List.length_drop]
    simp only [Apdu.maxExtendedNe]
    omega
  · obtain ⟨piece, hne, hfront, hlength, hreply⟩ := reply_readCommand_long ho hpos hshort
    obtain ⟨after, ht, hready⟩ :=
      hs link hr _ _ hclass (length_request_readCommand ho' _) hreply
    refine ⟨piece, after, readUncorrected_run hpos ht ?_, hready, hne, hfront,
      fun h => absurd h hshort⟩
    rw [readData, if_neg hshort, unwrapContents_encode hlength]

/-! ## Whole files -/

/-- The bytes at the front of a file with those that follow them. -/
theorem append_isPrefix {contents chunk : Bytes} (hc : contents <+: file)
    (hchunk : chunk <+: file.drop contents.length) : contents ++ chunk <+: file := by
  obtain ⟨rest, rfl⟩ := hc
  rw [List.drop_left] at hchunk
  exact (List.prefix_append_right_inj contents).2 hchunk

/-- **The loop reaches the end of the contents** and has read exactly these. The induction is on the
number of bytes that are missing, and what there is of the contents is always the front of the
file. -/
theorem readRest_run (hs : Serves card file ready) (config : SessionConfig) {total : Nat}
    (ht : total ≤ file.length) (ht' : total < UInt64.size) {link : Link σ} (hr : ready link)
    {contents : Bytes} (hc : contents <+: file) : ∃ after,
      (readRest config total contents).run card link = (.ok (file.take total), after) ∧
        ready after := by
  -- every piece has at least one byte, so less is left to read each time
  induction hn : total - contents.length using Nat.strongRecOn generalizing contents link with
  | ind n ih =>
    rw [readRest]
    split
    · rename_i hlt
      obtain ⟨chunk, next, hrun, hready, hne, hfront, -⟩ := readBinary_run hs config hr
        (Nat.lt_of_lt_of_le hlt ht) (Nat.lt_trans hlt ht')
        (show 0 < min (total - contents.length) (max config.maxReadLength 1) by omega)
      obtain ⟨b, rest, rfl⟩ := List.exists_cons_of_ne_nil hne
      have hless : total - (contents ++ b :: rest).length < n := by
        rw [List.length_append, List.length_cons]
        omega
      obtain ⟨after, hrest, hafter⟩ := ih _ hless hready (append_isPrefix hc hfront) rfl
      refine ⟨after, ?_, hafter⟩
      rw [Dialogue.run_bind, hrun]
      exact hrest
    · refine ⟨link, ?_, hr⟩
      have htake : contents.take total = file.take total := by
        obtain ⟨rest, rfl⟩ := hc
        rw [List.take_append_of_le_length (by omega)]
      show (Outcome.ok (contents.take total), link) = _
      rw [htake]

/-- The first four bytes, or all if there are fewer. -/
theorem take_requestedLength (config : SessionConfig) (bytes : Bytes) :
    bytes.take (min (requestedLength config headerReadLength) Apdu.maxExtendedNe) =
      bytes.take 4 := by
  rw [requestedLength]
  split <;> rfl

/-- **Reading the selected file gives its contents.** Four bytes tell how long these are, or eight
do. -/
theorem readSelected_run (hs : Serves card file ready) (config : SessionConfig) {contents : Bytes}
    (hf : IsContents file contents) {link : Link σ} (hr : ready link) : ∃ after,
      (readSelected config).run card link = (.ok contents, after) ∧ ready after := by
  have hle := hf.length_le
  have hlt := hf.length_lt
  obtain ⟨first, next, hrun, hready, -, -, hfirst⟩ := readBinary_run hs config hr
    (Nat.lt_of_lt_of_le hf.length_pos hle) (by decide) (show 0 < headerReadLength by decide)
  obtain rfl : first = file.take 4 := by
    rw [hfirst (Nat.zero_le _), take_requestedLength, List.drop_zero]
  rw [readSelected, Dialogue.run_bind, hrun]
  simp only [Outcome.andThen]
  cases hn : length? (file.take 4) with
  | some total =>
    obtain rfl := hf.eq_of_length?_take hn
    obtain ⟨after, hrest, hafter⟩ := readRest_run hs config hle hlt hready
      (List.take_prefix 4 file)
    exact ⟨after, by rw [hrest, hf.take_length], hafter⟩
  | none =>
    -- there is more of the file than four bytes, or these would have told the length
    have hlong : 4 < file.length := by
      by_contra hshort
      have height := hf.length?_take (Nat.le_refl 8)
      rw [List.take_of_length_le (by omega)] at hn height
      rw [hn] at height
      cases height
    have hfour : (file.take 4).length = 4 := by
      rw [List.length_take]
      omega
    obtain ⟨more, next', hrun', hready', -, -, hmore⟩ :=
      readBinary_run hs config hready hlong (by decide)
      (show 0 < headerReadLength by decide)
    have height : file.take 4 ++ more = file.take 8 := by
      rw [hmore (by decide), take_requestedLength, ← List.take_add]
    obtain ⟨after, hrest, hafter⟩ := readRest_run hs config hle hlt hready'
      (List.take_prefix 8 file)
    refine ⟨after, ?_, hafter⟩
    rw [hfour, Dialogue.run_bind, hrun']
    simp only [Outcome.andThen, height, hf.length?_take (Nat.le_refl 8)]
    rw [hrest, hf.take_length]

/-- **Reading a file gives its contents**, once the card has selected it. -/
theorem read_run (hs : Serves card file ready) (config : SessionConfig) {contents : Bytes}
    (hf : IsContents file contents) {id : FileIdentifier} {link next : Link σ} {data : Bytes}
    (ht : link.transmit card (selectFileCommand id) = (.ok ⟨data, .success⟩, next))
    (hr : ready next) :
    ∃ after, (read config id).run card link = (.ok contents, after) ∧ ready after := by
  obtain ⟨after, hrun, hafter⟩ := readSelected_run hs config hf hr
  refine ⟨after, ?_, hafter⟩
  rw [read, Dialogue.run_bind]
  have hselect : (selectFile id).run card link = (.ok (), next) := by
    rw [selectFile, Dialogue.run, ht]
    rfl
  rw [hselect]
  exact hrun

end TravelDocument.File
