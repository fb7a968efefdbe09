import TravelDocument.Proofs.SecureMessaging.Unwrapping

/-!
# Only authenticated bytes are believed

A strict channel believes a response only if its last `DO8E` is the MAC of `coveredInput`, and what
it believes is a function of that MAC input: the objects with odd tags are read back from it
(`coveredInput_inj`), and data and status come from them alone. A response whose MAC is missing or
wrong fails for that reason and for no other.
-/

namespace TravelDocument.Channel

/-- What the MAC of the next response of a channel is computed from if the response consists of
`objects`: the counter moved on, then the raw bytes of the objects with odd tags, padded. -/
def coveredInput (c : Channel) (objects : List DataObject) : Bytes :=
  Padding.pad c.suite.blockSize
    (Bytes.be c.suite.blockSize ((c.counter + 1) % c.suite.counterRange) ++
      (oddObjects objects).flatMap (·.raw))

variable {c : Channel} {objects objects' : List DataObject}

theorem macInput_step :
    c.step.macInput (authenticatedObjects objects) = c.coveredInput objects := rfl

theorem mac_step :
    c.step.mac (authenticatedObjects objects) = c.suite.mac c.keys.mac (c.coveredInput objects) :=
      rfl

/-- The objects with odd tags are read back from the MAC input. -/
theorem coveredInput_inj (ho : ∀ o ∈ objects, o.IsObject) (ho' : ∀ o ∈ objects', o.IsObject)
    (h : c.coveredInput objects = c.coveredInput objects') :
    oddObjects objects = oddObjects objects' := by
  rw [← macInput_step, ← macInput_step] at h
  have hraw : authenticatedObjects objects = authenticatedObjects objects' := macInput_inj c.step h
  exact DataObject.raws_inj (fun o h => ho o (List.mem_filter.1 h).1)
    (fun o h => ho' o (List.mem_filter.1 h).1) hraw

/-- A channel that accepts two responses with the same MAC input takes the same from both. -/
theorem answer_eq_of_coveredInput {response response' answer answer' : Apdu.Response}
    (hc : c.macPolicy = .strict)
    (ho : DataObject.all? response.data = some objects)
    (ho' : DataObject.all? response'.data = some objects')
    (h : c.step.unwrap response = .ok answer) (h' : c.step.unwrap response' = .ok answer')
    (hcov : c.coveredInput objects = c.coveredInput objects') : answer = answer' := by
  obtain ⟨os, -, hos, -, -, hdata, hstatus⟩ := unwrap_eq_ok (c := c.step) hc h
  obtain ⟨os', -, hos', -, -, hdata', hstatus'⟩ := unwrap_eq_ok (c := c.step) hc h'
  obtain rfl : os = objects := Option.some.inj (hos.symm.trans ho)
  obtain rfl : os' = objects' := Option.some.inj (hos'.symm.trans ho')
  have hodd : oddObjects os = oddObjects os' :=
    coveredInput_inj (DataObject.all?_eq_some_iff.1 hos).1
      (DataObject.all?_eq_some_iff.1 hos').1 hcov
  have hd : answer.data = answer'.data := by
    rw [← responseData_oddObjects, hodd, responseData_oddObjects, hdata'] at hdata
    exact (Except.ok.inj hdata).symm
  have hs : answer.status = answer'.status := by
    rw [← responseStatus_oddObjects, hodd, responseStatus_oddObjects, hstatus'] at hstatus
    exact (Except.ok.inj hstatus).symm
  cases answer
  cases answer'
  simp only at hd hs
  rw [hd, hs]

/-- Well-formed responses with a wrong MAC fail with a wrong MAC. -/
theorem unwrap_of_wrong_mac {response : Apdu.Response} {mac : DataObject}
    (hc : c.macPolicy = .strict)
    (hd : response.data ≠ []) (ho : DataObject.all? response.data = some objects)
    (hl : IsLast Tag.mac objects mac)
    (hm : c.suite.mac c.keys.mac (c.coveredInput objects) ≠ .ok mac.value) :
    c.step.unwrap response = .error (.integrity .responseMac) := by
  rw [← mac_step] at hm
  rw [unwrap_of_objects hd ho]
  exact unwrapObjects_of_not_mac (lastObject?_eq_some_iff.2 hl) hm hc

/-- Well-formed responses without a MAC fail with a missing MAC. -/
theorem unwrap_of_missing_mac {response : Apdu.Response} (hd : response.data ≠ [])
    (ho : DataObject.all? response.data = some objects) (hn : ∀ o ∈ objects, o.tag ≠ Tag.mac) :
    c.unwrap response = .error (.integrity .missingResponseMac) := by
  rw [unwrap_of_objects hd ho]
  exact unwrapObjects_of_missing (lastObject?_eq_none_iff.2 (by simpa using hn))

/-- **Only authenticated bytes are believed.** An accepted response ends in the MAC of its
authenticated objects, and they alone determine what is taken from it. A wrong MAC, a missing one
and an empty response are each refused as such. -/
theorem unwrap_authenticated (hc : c.macPolicy = .strict) :
    (∀ response answer, c.step.unwrap response = .ok answer →
      ∃ objects mac, DataObject.all? response.data = some objects ∧
        IsLast Tag.mac objects mac ∧
        c.suite.mac c.keys.mac (c.coveredInput objects) = .ok mac.value) ∧
    (∀ response response' answer answer' objects objects',
      DataObject.all? response.data = some objects →
        DataObject.all? response'.data = some objects' →
      c.step.unwrap response = .ok answer → c.step.unwrap response' = .ok answer' →
      c.coveredInput objects = c.coveredInput objects' → answer = answer') ∧
    (∀ response objects, response.data ≠ [] → DataObject.all? response.data = some objects →
      (∀ mac, IsLast Tag.mac objects mac →
        c.suite.mac c.keys.mac (c.coveredInput objects) ≠ .ok mac.value →
        c.step.unwrap response = .error (.integrity .responseMac)) ∧
      ((∀ o ∈ objects, o.tag ≠ Tag.mac) →
        c.step.unwrap response = .error (.integrity .missingResponseMac))) ∧
    (∀ response answer, response.data = [] → c.step.unwrap response ≠ .ok answer) := by
  refine ⟨?_, ?_, ?_, ?_⟩
  · intro response answer h
    obtain ⟨objects, mac, ho, hl, hm, -, -⟩ := unwrap_eq_ok (c := c.step) hc h
    rw [mac_step] at hm
    exact ⟨objects, mac, ho, hl, hm⟩
  · intro response response' answer answer' objects objects' ho ho' h h' hcov
    exact answer_eq_of_coveredInput hc ho ho' h h' hcov
  · intro response objects hd ho
    exact ⟨fun mac hl hm => unwrap_of_wrong_mac hc hd ho hl hm, unwrap_of_missing_mac hd ho⟩
  · intro response answer hd h
    rw [unwrap_of_empty hd] at h
    cases h

/-- The answer to the selection of a file in that session. -/
def workedResponse : Apdu.Response :=
  ⟨[0x99, 0x02, 0x90, 0x00, 0x8E, 0x08, 0xFA, 0x85, 0x5A, 0x5D, 0x4C, 0x50, 0xA8, 0xED],
    .success⟩

set_option maxRecDepth 10000 in
/-- The channel accepts the response, so its MAC is the right one. -/
theorem workedResponse_authenticated :
    workedExample.macPolicy = .strict ∧
      workedExample.step.unwrap workedResponse = .ok ⟨[], .success⟩ ∧
      ∃ objects mac, DataObject.all? workedResponse.data = some objects ∧
        IsLast Tag.mac objects mac ∧
        workedExample.suite.mac workedExample.keys.mac (workedExample.coveredInput objects) =
          .ok mac.value := by
  have h : workedExample.step.unwrap workedResponse = .ok ⟨[], .success⟩ := by decide +kernel
  exact ⟨rfl, h, (unwrap_authenticated rfl).1 _ _ h⟩

end TravelDocument.Channel
