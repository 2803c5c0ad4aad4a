import Transponder.Proofs.Bits.Packing
import Transponder.Proofs.Schema.Keeps

/-!
# Opaque data has one form

Opaque data is taken from bytes with a count of bits, read from JSON, or made of bits that came about
in any other way. `Obtained` puts each of these beside the list of the bits that are meant. Whichever
way it came about, data is its list in the one form that there is for it (`payloads_canonical`), so
comparing data is comparing bits, and data goes through bytes and through JSON as it is.
-/

namespace Transponder

open Schema

/-- The number of bits and the bytes are read back, and so are the bits; the number has to fit into a
word. -/
theorem Schema.bits_keeps {b : Bits} (h : b.length < UInt64.size) : bits.Keeps b := by
  have hcount : (field "bits" natural64 Prod.fst).Keeps ["bits"] (b.length, b.base64) b.length :=
    Keeps.field (natural_keeps (Nat.le_sub_one_of_lt h))
  have hdata : (field "data" string Prod.snd).Keeps ["data"] (b.length, b.base64) b.base64 :=
    Keeps.field (string_keeps _)
  have hparts : (record (Prod.mk <$> field "bits" natural64 Prod.fst
      <*> field "data" string Prod.snd)).Keeps (b.length, b.base64) :=
    record_keeps ((hcount.map _).seq hdata) (by decide)
  refine ⟨hparts.representable, fun r j hj => ?_⟩
  unfold bits
  dsimp only
  rw [hparts.reads r j hj]
  show (Base64.decode? b.base64.toList >>= fun bytes => (Bits.ofBytes bytes b.length).toOption) = _
  rw [Bits.base64, String.toList_ofList, Base64.decode?_encode]
  show (Bits.ofBytes b.bytes.toList b.length).toOption = _
  rw [Bits.ofBytes_bytes]
  rfl

/-! ## The parts of a value that is read -/

namespace Fields

variable {σ α β : Type} {fs : Fields σ (α → β)} {gs : Fields σ α} {f : α → β} {r : Reading}
  {es : List (String × Json)} {js rest : List Json} {y : β}

theorem ofEntries_map (h : (f <$> gs).ofEntries r es = some y) :
    ∃ a, gs.ofEntries r es = some a ∧ f a = y :=
  Option.map_eq_some_iff.mp h

theorem ofEntries_seq (h : (fs <*> gs).ofEntries r es = some y) :
    ∃ f a, fs.ofEntries r es = some f ∧ gs.ofEntries r es = some a ∧ f a = y := by
  obtain ⟨f, hf, hrest⟩ := Option.bind_eq_some_iff.mp h
  obtain ⟨a, ha, heq⟩ := Option.bind_eq_some_iff.mp hrest
  exact ⟨f, a, hf, ha, Option.some.inj heq⟩

theorem ofItems_map (h : (f <$> gs).ofItems r js = some (y, rest)) :
    ∃ a, gs.ofItems r js = some (a, rest) ∧ f a = y := by
  obtain ⟨⟨a, js'⟩, ha, heq⟩ := Option.map_eq_some_iff.mp h
  cases heq
  exact ⟨a, ha, rfl⟩

theorem ofItems_seq (h : (fs <*> gs).ofItems r js = some (y, rest)) :
    ∃ f a js', fs.ofItems r js = some (f, js') ∧ gs.ofItems r js' = some (a, rest) ∧ f a = y := by
  obtain ⟨⟨f, js'⟩, hf, hrest⟩ := Option.bind_eq_some_iff.mp h
  obtain ⟨⟨a, rest'⟩, ha, heq⟩ := Option.bind_eq_some_iff.mp hrest
  cases heq
  exact ⟨f, a, js', hf, ha, rfl⟩

end Fields

namespace Schema

variable {σ α : Type} {schema : Schema α} {fs : Fields α α} {get : σ → α} {name text : String}
  {r : Reading} {es : List (String × Json)} {js rest : List Json} {j : Json} {a : α} {n : Nat}

theorem named_of_field (h : (field name schema get).ofEntries r es = some a)
    (habsent : schema.absent = none) :
    ∃ j, Json.named es name = [j] ∧ schema.readAs r j = some a := by
  unfold field at h
  dsimp only at h
  split at h
  case h_1 =>
    rw [habsent] at h
    cases h
  case h_2 j hj => exact ⟨j, hj, h⟩
  case h_3 => cases h

theorem head_of_field (h : (field name schema get).ofItems r js = some (a, rest)) :
    ∃ j, js = j :: rest ∧ schema.readAs r j = some a := by
  cases js with
  | nil => cases h
  | cons j js =>
    have hread : (schema.readAs r j).map (·, js) = some (a, rest) := h
    obtain ⟨a', ha, heq⟩ := Option.map_eq_some_iff.mp hread
    cases heq
    exact ⟨j, rfl, ha⟩

theorem items_of_read (h : (record fs).readAs r (.array js) = some a) :
    fs.ofItems r js = some (a, []) := by
  unfold record at h
  dsimp only at h
  split at h
  case h_1 hitems => rwa [Option.some.inj h] at hitems
  case h_2 => cases h

theorem string_of_read (h : string.readAs r j = some text) : j = .string text := by
  cases j with
  | string s => exact congrArg Json.string (Option.some.inj h)
  | _ => cases h

theorem integer_of_read (h : natural64.readAs r j = some n) :
    ∃ i : Int, j = .integer i ∧ n = i.toNat := by
  cases j with
  | integer i =>
    have hread : (if 0 ≤ i ∧ i ≤ (UInt64.size - 1 : Nat) then some i.toNat else none) = some n := h
    split at hread
    case isTrue => exact ⟨i, rfl, (Option.some.inj hread).symm⟩
    case isFalse => cases hread
  | _ => cases h

/-- The number of bits and the text that a value states, as an object or as an array. -/
inductive Stated : Json → Int → String → Prop where
  | object {es : List (String × Json)} {i : Int} {text : String}
    (hcount : Json.named es "bits" = [.integer i]) (hdata : Json.named es "data" = [.string text]) :
    Stated (.object es) i text
  | array (i : Int) (text : String) : Stated (.array [.integer i, .string text]) i text

theorem Stated.unique {i i' : Int} {text' : String} (h : Stated j i text) (h' : Stated j i' text') :
    i = i' ∧ text = text' := by
  cases h with
  | object hcount hdata =>
    cases h' with
    | object hcount' hdata' =>
      rw [hcount] at hcount'
      rw [hdata] at hdata'
      cases hcount'
      cases hdata'
      exact ⟨rfl, rfl⟩
  | array =>
    cases h'
    exact ⟨rfl, rfl⟩

/-- A number of bits and a text that were read were stated. -/
theorem stated_of_parts (h : (record (Prod.mk <$> field "bits" natural64 Prod.fst
      <*> field "data" string Prod.snd)).readAs r j = some (n, text)) :
    ∃ i, Stated j i text ∧ n = i.toNat := by
  cases j with
  | object es =>
    obtain ⟨f, text', hf, htext, heq⟩ := Fields.ofEntries_seq h
    obtain ⟨n', hn, rfl⟩ := Fields.ofEntries_map hf
    cases heq
    obtain ⟨k, hk, hcount⟩ := named_of_field hn rfl
    obtain ⟨l, hl, hdata⟩ := named_of_field htext rfl
    obtain ⟨i, rfl, rfl⟩ := integer_of_read hcount
    obtain rfl := string_of_read hdata
    exact ⟨i, .object hk hl, rfl⟩
  | array js =>
    obtain ⟨f, text', js', hf, htext, heq⟩ := Fields.ofItems_seq (items_of_read h)
    obtain ⟨n', hn, rfl⟩ := Fields.ofItems_map hf
    cases heq
    obtain ⟨k, rfl, hcount⟩ := head_of_field hn
    obtain ⟨l, rfl, hdata⟩ := head_of_field htext
    obtain ⟨i, rfl, rfl⟩ := integer_of_read hcount
    obtain rfl := string_of_read hdata
    exact ⟨i, .array i _, rfl⟩
  | _ => cases h

/-- Opaque data that was read is as many bits as were stated, of the bytes that the text stands for. -/
theorem stated_of_read {b : Bits} (h : bits.readAs r j = some b) :
    ∃ i text bytes, Stated j i text ∧ Base64.decode? text.toList = some bytes ∧
      Bits.ofBytes bytes i.toNat = .ok b := by
  obtain ⟨⟨n, text⟩, hparts, hrest⟩ := Option.bind_eq_some_iff.mp h
  obtain ⟨bytes, hbytes, hb⟩ := Option.bind_eq_some_iff.mp hrest
  obtain ⟨i, hstated, rfl⟩ := stated_of_parts hparts
  refine ⟨i, text, bytes, hstated, hbytes, ?_⟩
  cases hof : Bits.ofBytes bytes i.toNat with
  | error e =>
    rw [hof] at hb
    cases hb
  | ok c =>
    rw [hof] at hb
    exact congrArg Except.ok (Option.some.inj hb)

end Schema

namespace Bits

variable {b c : Bits} {bytes : List UInt8} {xs ys : List Bool} {n : Nat}

/-- The data of a sequence of bits: its bytes with their bits counted, and no data if the bytes were
not enough. -/
def recounted (b : Bits) : Bits :=
  (ofBytes b.bytes.toList b.length).toOption.getD empty

/-- The bytes of a sequence are always enough. -/
theorem recounted_eq (b : Bits) : b.recounted = b := by
  rw [recounted, ofBytes_bytes]
  rfl

/-- The ways to come by opaque data, and the bits that are meant: some of the bits of bytes or all of
them, none at all, those that a JSON value states, and those of a sequence of bits that came about in
any way. -/
inductive Obtained : Bits → List Bool → Prop where
  | counted {b : Bits} {bytes : List UInt8} {n : Nat} (h : ofBytes bytes n = .ok b) :
    Obtained b ((unpacked bytes).take n)
  | whole {b : Bits} {bytes : List UInt8} (h : ofBytes bytes (8 * bytes.length) = .ok b) :
    Obtained b (unpacked bytes)
  | nothing : Obtained empty []
  | read {b : Bits} {r : Reading} {j : Json} {i : Int} {text : String} {bytes : List UInt8}
    (hj : Schema.Stated j i text) (hbytes : Base64.decode? text.toList = some bytes)
    (h : Schema.bits.readAs r j = some b) : Obtained b ((unpacked bytes).take i.toNat)
  | ofBits {c : Bits} {xs : List Bool} (h : Made c xs) : Obtained c.recounted xs

/-- Whichever way it came about, data holds the bits that are meant. -/
theorem Obtained.holds (h : Obtained b xs) : Holds b.bytes b.length xs := by
  cases h with
  | counted h => exact holds_of_ofBytes h
  | whole h =>
    have hholds := holds_of_ofBytes h
    rwa [List.take_of_length_le (Nat.le_of_eq (length_unpacked _))] at hholds
  | nothing => exact empty.holds
  | read hj hbytes h =>
    obtain ⟨i, text, bytes, hstated, hdecoded, hb⟩ := stated_of_read h
    obtain ⟨rfl, rfl⟩ := hj.unique hstated
    obtain rfl := Option.some.inj (hbytes.symm.trans hdecoded)
    exact holds_of_ofBytes hb
  | ofBits h =>
    rw [recounted_eq, ← h.toList_eq]
    exact holds _

/-- All that is read as opaque data was stated. -/
theorem obtained_of_read {r : Reading} {j : Json} (h : Schema.bits.readAs r j = some b) :
    ∃ xs, Obtained b xs := by
  obtain ⟨i, text, bytes, hstated, hbytes, -⟩ := stated_of_read h
  exact ⟨_, .read hstated hbytes h⟩

theorem ofBytes_eq_error_iff : ofBytes bytes n = .error (.payloadLength n bytes.length) ↔
    8 * bytes.length < n := by
  constructor
  · intro h
    by_contra hle
    obtain ⟨b, hb⟩ := exists_ofBytes_iff.mpr (Nat.not_lt.mp hle)
    rw [hb] at h
    cases h
  · intro h
    exact dif_neg (by rw [List.size_toArray]; omega)

/-- Data is compared by its bits. -/
theorem beq_iff_get? : (b == c) = true ↔ b.length = c.length ∧ ∀ i < b.length, b.get? i = c.get? i := by
  rw [beq_iff_eq]
  constructor
  · rintro rfl
    exact ⟨rfl, fun _ _ => rfl⟩
  · rintro ⟨hlength, hbits⟩
    refine bit_ext hlength fun i hi => ?_
    have hget := hbits i hi
    rw [get?, get?, if_pos hi, if_pos (hlength ▸ hi)] at hget
    exact Option.some.inj hget

/-- Data can be taken from bytes exactly if they have enough bits, and depends on those alone. However
it came about, it holds the bits that are meant in just enough bytes with zeros behind, so it is
compared by its bits, and it comes back from a sequence of bits and from JSON as it is. -/
theorem payloads_canonical :
    (∀ bytes n, ((∃ b, ofBytes bytes n = .ok b) ↔ n ≤ 8 * bytes.length) ∧
      (ofBytes bytes n = .error (.payloadLength n bytes.length) ↔ 8 * bytes.length < n) ∧
      ∀ bytes', n ≤ 8 * bytes.length → n ≤ 8 * bytes'.length →
        (unpacked bytes).take n = (unpacked bytes').take n → ofBytes bytes n = ofBytes bytes' n) ∧
    (∀ bytes, ∃ b, ofBytes bytes (8 * bytes.length) = .ok b ∧ b.bytes.toList = bytes) ∧
    (∀ r j b, Schema.bits.readAs r j = some b → ∃ xs, Obtained b xs) ∧
    (∀ b xs, Obtained b xs → Holds b.bytes b.length xs ∧ b.recounted = b ∧
      (∀ c ys, Obtained c ys →
        ((b == c) = true ↔ b.length = c.length ∧ ∀ i < b.length, b.get? i = c.get? i)) ∧
      (b.length < UInt64.size → ∀ r, Schema.bits.readAs r (Schema.bits.write b) = some b)) ∧
    ∀ c xs, Made c xs → c.recounted = c := by
  refine ⟨fun bytes n => ?_, bytes_of_ofBytes_whole, fun r j b => obtained_of_read, fun b xs hb => ?_,
    fun c xs _ => recounted_eq c⟩
  · exact ⟨exists_ofBytes_iff, ofBytes_eq_error_iff, fun bytes' => ofBytes_congr⟩
  · refine ⟨hb.holds, recounted_eq b, fun c ys _ => beq_iff_get?, fun hlength r => ?_⟩
    exact (Schema.bits_keeps hlength).reads r _ (.refl _)

-- The ones behind the twelve that are counted are cut off, and they are no part of the JSON value.
theorem payloads_canonical_twelve : ∃ b, ofBytes [0xFF, 0xFF, 0xFF] 12 = .ok b ∧
    ofBytes [0xFF, 0xF7] 12 = .ok b ∧ Holds b.bytes b.length (List.replicate 12 true) ∧
    Schema.bits.readAs .kept (Schema.bits.write b) = some b := by
  obtain ⟨hbytes, -, -, hall, -⟩ := payloads_canonical
  obtain ⟨hexists, -, hfirst⟩ := hbytes [0xFF, 0xFF, 0xFF] 12
  obtain ⟨b, hb⟩ := hexists.mpr (by decide)
  obtain ⟨hholds, -, -, hread⟩ := hall b _ (.counted hb)
  have hsame := hfirst [0xFF, 0xF7] (by decide) (by decide) (by decide)
  have hlength : b.length = 12 := (le_of_ofBytes hb).1
  exact ⟨b, hb, hsame ▸ hb, hholds, hread (hlength ▸ by decide) .kept⟩

end Bits

end Transponder
