import Transponder.Proofs.Bits.Armor
import Transponder.Proofs.Message.RoundTrip
import Transponder.Station.Receiver

/-!
# Payloads of messages

Armor and taking it off again undo one another as far as they can (`armor_inverts`): the text of a
sequence of bits gives it back once its fill bits are taken off, and the bits of a text are armored
to this text but for the bytes that are no armor. A payload is decoded from the bits that are left
without its fill bits, however many of these are asked for (`ofPayload_eq`).

Fill bits that are left where they are do no harm to a message that does not end with data: up to
five bits behind it, whatever they are, leave what is decoded as it was
(`decode_filled`). The layouts say so of what follows them (`Message.slack`); data is different, since
it takes all that is left.
-/

namespace Transponder.Message

open Bits

/-- A payload without its fill bits. -/
theorem ofPayload_eq (payload : String) (count : Nat) : ofPayload payload count =
    decode (ofList ((ofArmor payload).toList.take
      (6 * Text.byteLength payload.toList - count))) := by
  rw [ofPayload]
  refine congrArg decode (ext_toList ?_)
  rw [toList_truncate, toList_ofList, length_ofArmor]

/-- The armored text of a sequence of bits has a character for every six of them, rounded up, and
gives them back with zeros behind them that its count of fill bits takes off. The bits of a text are
six for each of its bytes, and are armored as the text was but for the bytes that are no armor. A
payload with any count of fill bits is decoded from the bits in front of these, to a message or to
the reason why these bits are none. -/
theorem armor_inverts :
    (∀ b : Bits,
      b.armored.length = (b.length + 5) / 6 ∧
      (∀ c ∈ b.armored.toList, IsArmor c.toNat) ∧
      (ofArmor b.armored).toList = b.toList ++ List.replicate (fillBits b.length) false ∧
      (ofArmor b.armored).truncate ((ofArmor b.armored).length - fillBits b.length) = b ∧
      ofPayload b.armored (fillBits b.length) = decode b) ∧
    (∀ text : String,
      (ofArmor text).length = 6 * Text.byteLength text.toList ∧
      Text.utf8 (ofArmor text).armored.toList =
        (Text.utf8 text.toList).map fun byte => if IsArmor byte.toNat then byte else 48) ∧
    ∀ (payload : String) (count : Nat),
      let bits := ofList ((ofArmor payload).toList.take
        (6 * Text.byteLength payload.toList - count))
      ofPayload payload count = decode bits ∧
        ((∃ m, decode bits = .ok m) ∨ ∃ e, decode bits = .error e ∧
          (e = .unsupportedLayout 24 (.partNumber (partNumber bits)) ∨ bits.Exceeds e)) := by
  refine ⟨fun b => ⟨length_armored, fun c => armored_range, toList_ofArmor_armored,
    truncate_ofArmor_armored, ?_⟩, fun text => ⟨length_ofArmor, utf8_armored_ofArmor⟩,
    fun payload count => ⟨ofPayload_eq payload count, ?_⟩⟩
  · rw [ofPayload, truncate_ofArmor_armored]
  · rcases decode_cases (ofList ((ofArmor payload).toList.take
      (6 * Text.byteLength payload.toList - count))) with ⟨-, m, -, -, hm⟩ | ⟨e, he, hcases⟩
    · exact .inl ⟨m, hm⟩
    · exact .inr ⟨e, he, hcases.imp And.right And.right⟩

/-- A character of two bytes, and one between the two ranges of armor, become three zeros. -/
theorem armor_inverts_foreignText :
    Text.utf8 (ofArmor "1é^w").armored.toList = [49, 48, 48, 48, 119] ∧
      (∀ c ∈ (ofArmor "1é^w").armored.toList, IsArmor c.toNat) ∧
      ofPayload "1é^w" 255 = decode (ofList []) := by
  obtain ⟨harmored, htext, hpayload⟩ := armor_inverts
  obtain ⟨-, hrange, -⟩ := harmored (ofArmor "1é^w")
  refine ⟨?_, hrange, ?_⟩
  · rw [(htext "1é^w").2]
    decide +kernel
  · rw [(hpayload "1é^w" 255).1]
    rfl

/-! ## Fill bits that are left -/

/-- A message that has data of any length at its end, or right in front of its last field. -/
def HasData : Message → Prop
  | addressedBinary _ | binaryBroadcast _ | dgnssBroadcast _ | singleSlotBinary _
  | multipleSlotBinary _ => True
  | _ => False

variable {m : Message} {b : Bits} {count : Nat}

theorem slack_of_not_hasData (hm : ¬ m.HasData) (h : count ≤ 5) : m.slack count := by
  have hlt : count < 6 := by omega
  cases m <;> first | exact hlt | exact absurd trivial hm

theorem decode_append (h : m.encode = .ok b) (hm : ¬ m.HasData) (xs : List Bool)
    (hxs : xs.length ≤ 5) : decode (b.append xs) = .ok m.normalised := by
  have hfront : b.toList <+: (b.append xs).toList := by simp
  have hbehind : (b.append xs).length - b.length = xs.length := by simp
  exact decode_of_isPrefix h hfront (hbehind ▸ slack_of_not_hasData hm hxs)

/-- With too few fill bits taken off, some of the zeros stay behind the bits. -/
theorem truncate_ofArmor_armored_of_le (h : count ≤ fillBits b.length) :
    (ofArmor b.armored).truncate ((ofArmor b.armored).length - count) =
      b.append (List.replicate (fillBits b.length - count) false) := by
  have hlength : b.length + fillBits b.length - count =
      b.toList.length + (fillBits b.length - count) := by
    rw [length_toList]
    omega
  apply ext_toList
  rw [toList_truncate, toList_ofArmor_armored, length_ofArmor_armored, toList_append, hlength,
    List.take_length_add_append, List.take_replicate, Nat.min_eq_left (Nat.sub_le _ _)]

/-- Bits behind a message without data at its end change nothing, up to five of them: those that are
appended to its bits, and the fill bits of its payload that are not taken off. -/
theorem decode_filled (h : m.encode = .ok b) (hm : ¬ m.HasData) :
    decode b = .ok m.normalised ∧
    (∀ xs : List Bool, xs.length ≤ 5 → decode (b.append xs) = decode b) ∧
    (∀ count ≤ fillBits b.length, ofPayload b.armored count = decode b) ∧
    ofPayload b.armored 0 = ofPayload b.armored (fillBits b.length) := by
  have hdecode : decode b = .ok m.normalised := decode_append h hm [] (Nat.zero_le 5)
  have hpayload : ∀ count ≤ fillBits b.length, ofPayload b.armored count = decode b := by
    intro count hcount
    have hfill := fillBits_le b.length
    rw [ofPayload, truncate_ofArmor_armored_of_le hcount, hdecode]
    refine decode_append h hm _ ?_
    rw [List.length_replicate]
    omega
  refine ⟨hdecode, fun xs hxs => ?_, hpayload, ?_⟩
  · rw [decode_append h hm xs hxs, hdecode]
  · rw [hpayload 0 (Nat.zero_le _), hpayload _ (Nat.le_refl _)]

/-- The buoy has an extension of its name, of which four fill bits are no character. -/
theorem decode_filled_buoy :
    ∃ b, (aidToNavigationReport buoy).encode = .ok b ∧ ¬ (aidToNavigationReport buoy).HasData ∧
      fillBits b.length = 4 ∧
      decode (b.append [true, true, true, true, true]) = decode b ∧
      ofPayload b.armored 0 = .ok (aidToNavigationReport buoy).normalised := by
  obtain ⟨b, hb⟩ := exists_encode_of_isOk (m := aidToNavigationReport buoy) (by decide +kernel)
  obtain ⟨hdecode, happend, hpayload, -⟩ := decode_filled hb id
  have hfill : (aidToNavigationReport buoy).encode.toOption.map (fillBits ·.length) = some 4 := by
    decide +kernel
  rw [hb] at hfill
  exact ⟨b, hb, id, Option.some.inj hfill, happend _ (by decide),
    (hpayload 0 (Nat.zero_le _)).trans hdecode⟩

end Transponder.Message
