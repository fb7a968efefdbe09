import TravelDocument.Proofs.Encoding.Tlv
import TravelDocument.Proofs.Failures
import TravelDocument.Proofs.SecureMessaging.Channel

/-!
# The stages of unwrapping a response

`lastObject?` finds the last object under one of several tags (`lastObject?_eq_some_iff`), and if
all of these are odd it does not see the objects with even tags (`lastObject?_oddObjects`). Hence
data and status of a response come from the authenticated objects only (`responseData_oddObjects`,
`responseStatus_oddObjects`). `unwrapObjects_of_mac` and `unwrapObjects_of_not_mac` say what is left
to do after the MAC has been looked at. `Refuses` lists what may be wrong with a response, and
`unwrap_refuses` says that the list is complete.
-/

namespace TravelDocument.Channel

variable {c : Channel} {objects : List DataObject}

/-! ## The last object under a tag -/

/-- `o` is the last of the objects that have the tag. -/
def IsLast (tag : Nat) (objects : List DataObject) (o : DataObject) : Prop :=
  ∃ before after, objects = before ++ o :: after ∧ o.tag = tag ∧
    ∀ x ∈ after, x.tag ≠ tag

theorem lastObject?_append_singleton (tags : List Nat) (objects : List DataObject)
    (o : DataObject) :
    lastObject? tags (objects ++ [o]) =
      if tags.contains o.tag then some o else lastObject? tags objects := by
  simp only [lastObject?, List.reverse_append, List.reverse_singleton, List.singleton_append,
    List.find?_cons]
  cases tags.contains o.tag <;> rfl

theorem lastObject?_eq_none_iff {tags : List Nat} :
    lastObject? tags objects = none ↔ ∀ o ∈ objects, o.tag ∉ tags := by
  simp [lastObject?, List.find?_eq_none]

theorem lastObject?_eq_some_iff {tag : Nat} {o : DataObject} :
    lastObject? [tag] objects = some o ↔ IsLast tag objects o := by
  simp only [lastObject?, List.find?_eq_some_iff_append, IsLast]
  constructor
  · rintro ⟨ht, after, before, hr, ha⟩
    refine ⟨before.reverse, after.reverse, ?_, by simpa using ht, fun x hx => ?_⟩
    · rw [← List.reverse_reverse objects, hr]
      simp
    · simpa using ha x (List.mem_reverse.1 hx)
  · rintro ⟨before, after, rfl, rfl, ha⟩
    refine ⟨by simp, after.reverse, before.reverse, by simp, fun x hx => ?_⟩
    simpa using ha x (List.mem_reverse.1 hx)

/-! ## Objects with odd tags -/

/-- The objects that the MAC of a response covers. -/
def oddObjects (objects : List DataObject) : List DataObject :=
  objects.filter fun object => object.tag % 2 == 1

theorem authenticatedObjects_eq :
    authenticatedObjects objects = (oddObjects objects).flatMap (·.raw) :=
  rfl

/-- The last object under odd tags is found among the objects with odd tags. -/
theorem lastObject?_oddObjects {tags : List Nat} (ht : ∀ t ∈ tags, t % 2 = 1) :
    lastObject? tags (oddObjects objects) = lastObject? tags objects := by
  rw [lastObject?, lastObject?, oddObjects, ← List.filter_reverse, List.find?_filter]
  congr 1
  funext o
  by_cases h : o.tag ∈ tags
  · simp [h, ht o.tag h]
  · simp [h]

theorem responseData_oddObjects : c.responseData (oddObjects objects) = c.responseData objects := by
  rw [responseData, responseData, lastObject?_oddObjects (by decide)]

theorem responseStatus_oddObjects :
    responseStatus (oddObjects objects) = responseStatus objects := by
  rw [responseStatus, responseStatus, lastObject?_oddObjects (by decide)]

/-! ## Unwrapping -/

theorem unwrapObjects_of_missing (h : lastObject? [Tag.mac] objects = none) :
    c.unwrapObjects objects = .error (.integrity .missingResponseMac) := by
  rw [unwrapObjects, h]

/-- Behind an accepted MAC there are the data and the status. -/
theorem unwrapObjects_of_mac {mac : DataObject} (h : lastObject? [Tag.mac] objects = some mac)
    (hm : c.mac (authenticatedObjects objects) = .ok mac.value ∨ c.macPolicy = .lenient) :
    c.unwrapObjects objects =
      (do return ⟨← c.responseData objects, ← responseStatus objects⟩) := by
  rw [unwrapObjects, h]
  show (c.checkMac _ _ >>= fun _ => _) = _
  rw [checkMac_spec, if_pos hm]
  rfl

/-- Nothing is looked at behind a MAC that is not accepted. -/
theorem unwrapObjects_of_not_mac {mac : DataObject} (h : lastObject? [Tag.mac] objects = some mac)
    (hm : c.mac (authenticatedObjects objects) ≠ .ok mac.value) (hc : c.macPolicy = .strict) :
    c.unwrapObjects objects = .error (.integrity .responseMac) := by
  rw [unwrapObjects, h]
  show (c.checkMac _ _ >>= fun _ => _) = _
  rw [checkMac_spec, if_neg (by rw [hc]; simp [hm])]
  rfl

theorem unwrap_of_objects {response : Apdu.Response} (hd : response.data ≠ [])
    (ho : DataObject.all? response.data = some objects) :
    c.unwrap response = c.unwrapObjects objects := by
  rw [unwrap, if_neg (by simpa using hd), ho]

theorem unwrap_of_empty {response : Apdu.Response} (hd : response.data = []) :
    c.unwrap response = .error (.protocolAbort .secureMessaging response.status) := by
  rw [unwrap, hd]
  rfl

/-- What a strict channel has seen when it accepts a response. -/
theorem unwrap_eq_ok {response answer : Apdu.Response} (hc : c.macPolicy = .strict)
    (h : c.unwrap response = .ok answer) :
    ∃ objects mac, DataObject.all? response.data = some objects ∧
      IsLast Tag.mac objects mac ∧ c.mac (authenticatedObjects objects) = .ok mac.value ∧
      c.responseData objects = .ok answer.data ∧ responseStatus objects = .ok answer.status := by
  rw [unwrap] at h
  split at h
  · cases h
  split at h
  · cases h
  rename_i objects ho
  -- only the branch with the right MAC and readable data and status returns an answer
  cases hl : lastObject? [Tag.mac] objects with
  | none =>
    rw [unwrapObjects_of_missing hl] at h
    cases h
  | some mac =>
    by_cases hm : c.mac (authenticatedObjects objects) = .ok mac.value
    · rw [unwrapObjects_of_mac hl (.inl hm)] at h
      refine ⟨objects, mac, ho, lastObject?_eq_some_iff.1 hl, hm, ?_⟩
      cases hd : c.responseData objects with
      | error e =>
        rw [hd] at h
        cases h
      | ok data =>
        cases hs : responseStatus objects with
        | error e =>
          rw [hd, hs] at h
          cases h
        | ok status =>
          rw [hd, hs] at h
          cases h
          exact ⟨rfl, rfl⟩
    · rw [unwrapObjects_of_not_mac hl hm hc] at h
      cases h

/-! ## The length of the data -/

theorem length_responseData_le {data : Bytes} (h : c.responseData objects = .ok data) {n : Nat}
    (hn : ∀ o ∈ objects, o.value.length ≤ n) : data.length ≤ n := by
  rw [responseData] at h
  split at h
  · cases h
    exact Nat.zero_le n
  rename_i object hl
  have hobject := hn object (List.mem_reverse.1 (List.mem_of_find?_eq_some hl))
  rw [decryptObject] at h
  split at h
  · exact Nat.le_trans (c.length_decrypt_le (liftCrypto_eq_ok h)) hobject
  · split at h
    · cases h
    rename_i indicator ciphertext hv
    split at h
    · have hd := c.length_decrypt_le (liftCrypto_eq_ok h)
      rw [hv, List.length_cons] at hobject
      omega
    · cases h

/-- A channel takes less out of a response than there is in it, whatever it thinks of the MAC. -/
theorem length_unwrap_le {response answer : Apdu.Response} (h : c.unwrap response = .ok answer) :
    answer.data.length ≤ response.data.length := by
  rw [unwrap] at h
  split at h
  · cases h
  split at h
  · cases h
  rename_i objects ho
  rw [unwrapObjects] at h
  split at h
  · cases h
  obtain ⟨_, -, h⟩ := Except.bind_eq_ok.1 h
  obtain ⟨data, hd, h⟩ := Except.bind_eq_ok.1 h
  obtain ⟨status, -, h⟩ := Except.bind_eq_ok.1 h
  cases h
  exact length_responseData_le hd fun o hmem => DataObject.length_value_le_of_all? ho hmem

/-! ## Refusals -/

/-- The ciphertext in the encrypted object of a response, behind the padding indicator if there is
one. -/
def HoldsCiphertext (response : Apdu.Response) (ciphertext : Bytes) : Prop :=
  ∃ objects object, DataObject.all? response.data = some objects ∧
    lastObject? [Tag.encryptedTlv, Tag.encryptedPadded] objects = some object ∧
    (object.tag = Tag.encryptedTlv ∧ object.value = ciphertext ∨
      object.tag = Tag.encryptedPadded ∧ object.value = paddingIndicator :: ciphertext)

/-- The ways in which a channel does not accept a response. -/
inductive Refuses (c : Channel) (response : Apdu.Response) : Error → Prop
  /-- The chip has not accepted the command either. -/
  | unprotected : Refuses c response (.protocolAbort .secureMessaging response.status)
  | integrity (reason : IntegrityError) : Refuses c response (.integrity reason)
  | malformed (reason : Malformation) :
    Refuses c response (.malformedResponse .secureMessaging reason)
  | padding : Refuses c response (.crypto .invalidPadding)
  /-- The ciphertext is not a whole number of blocks. -/
  | ragged {ciphertext : Bytes} : HoldsCiphertext response ciphertext →
    ciphertext.length % c.suite.blockSize ≠ 0 →
    Refuses c response (.crypto (.invalidDataLength c.suite.blockSize ciphertext.length))

variable {response : Apdu.Response} {e : Error}

theorem Refuses.of_decrypt {ciphertext : Bytes} {reason : CryptoError}
    (hc : HoldsCiphertext response ciphertext) (h : c.decrypt ciphertext = .error reason) :
    c.Refuses response (.crypto reason) := by
  rcases c.decrypt_eq_error h with rfl | ⟨hr, rfl⟩
  · exact .padding
  · exact .ragged hc hr

theorem responseData_refuses (ho : DataObject.all? response.data = some objects)
    (h : c.responseData objects = .error e) : c.Refuses response e := by
  rw [responseData] at h
  split at h
  · cases h
  rename_i object hl
  have htag : object.tag = Tag.encryptedTlv ∨ object.tag = Tag.encryptedPadded := by
    simpa using List.find?_some hl
  -- `DO85` is decrypted as it is, and `DO87` only behind a padding indicator `01`
  rw [decryptObject] at h
  split at h
  · rename_i ht
    obtain ⟨reason, rfl, hd⟩ := liftCrypto_eq_error h
    exact .of_decrypt ⟨objects, object, ho, hl, .inl ⟨ht, rfl⟩⟩ hd
  · rename_i ht
    split at h
    · cases h
      exact .malformed _
    · rename_i indicator ciphertext hv
      split at h
      · rename_i hi
        obtain ⟨reason, rfl, hd⟩ := liftCrypto_eq_error h
        exact .of_decrypt
          ⟨objects, object, ho, hl, .inr ⟨htag.resolve_left ht, hi ▸ hv⟩⟩ hd
      · cases h
        exact .malformed _

theorem responseStatus_refuses (h : responseStatus objects = .error e) : c.Refuses response e := by
  rw [responseStatus] at h
  split at h
  · cases h
    exact .malformed _
  · split at h
    · cases h
    · cases h
      exact .malformed _

/-- **A channel has no other reasons** for not accepting a response. -/
theorem unwrap_refuses (h : c.unwrap response = .error e) : c.Refuses response e := by
  rw [unwrap] at h
  split at h
  · cases h
    exact .unprotected
  split at h
  · cases h
    exact .malformed _
  rename_i objects ho
  cases hl : lastObject? [Tag.mac] objects with
  | none =>
    rw [unwrapObjects_of_missing hl] at h
    cases h
    exact .integrity _
  | some mac =>
    -- a lenient channel goes on without the right MAC, and then other checks can still fail
    by_cases hm : c.mac (authenticatedObjects objects) = .ok mac.value ∨ c.macPolicy = .lenient
    · rw [unwrapObjects_of_mac hl hm] at h
      cases hd : c.responseData objects with
      | error e' =>
        rw [hd] at h
        cases h
        exact responseData_refuses ho hd
      | ok data =>
        cases hs : responseStatus objects with
        | error e' =>
          rw [hd, hs] at h
          cases h
          exact responseStatus_refuses hs
        | ok status =>
          rw [hd, hs] at h
          cases h
    · obtain ⟨hm, hc⟩ := not_or.1 hm
      have hstrict : c.macPolicy = .strict := by
        cases hp : c.macPolicy with
        | strict => rfl
        | lenient => exact absurd hp hc
      rw [unwrapObjects_of_not_mac hl hm hstrict] at h
      cases h
      exact .integrity _

end TravelDocument.Channel
