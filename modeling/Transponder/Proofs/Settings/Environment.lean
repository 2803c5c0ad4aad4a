import Mathlib.Data.List.Basic
import Transponder.Proofs.Text.Numerals
import Transponder.Settings.Environment

/-!
# Settings from an environment can be used

Each setting is read from a variable of its own and from nothing else (`ReadFrom`): it is what the text
of the variable says if that is acceptable, and the default if it is not or if there is no such
variable. What is acceptable is told by the text alone, for each kind of setting: `IsFlag`, `IsNumber`,
`IsChannel`, `IsTalker`. The acceptable texts and the defaults are within what is checked before a
message is sent, so settings from an environment always pass (`settings_of_environment`).
-/

namespace Transponder

namespace Environment

variable {α : Type} {text name : String} {x : Bool} {n least greatest : Nat} {c : Char}

/-! ## The texts that are acceptable -/

/-- The spellings of a flag. -/
def flagWords : Bool → List String
  | true => ["1", "true", "yes", "on"]
  | false => ["0", "false", "no", "off"]

/-- The text of a flag, in any case and with blanks around it. -/
def IsFlag (text : String) (x : Bool) : Prop :=
  Text.lower (Text.trimmed text) ∈ flagWords x

/-- A decimal numeral for a number in a range, with blanks around it. -/
structure IsNumber (least greatest : Nat) (text : String) (n : Nat) : Prop where
  numeral : Text.IsNumeral (Text.trim text.toList)
  value : Nat.ofDigitChars 10 (Text.dropPlus (Text.trim text.toList)) 0 = n
  least_le : least ≤ n
  le_greatest : n ≤ greatest

/-- A sequence id. -/
def IsSequenceId (text : String) (id : Option UInt8) : Prop :=
  ∃ n : UInt8, id = some n ∧ IsNumber 0 maxSequenceId text n.toNat

/-- An ASCII letter or digit with blanks around it. -/
def IsChannel (text : String) (c : Char) : Prop :=
  Text.trim text.toList = [c] ∧ c.isAlphanum = true

/-- Two ASCII letters with blanks around them, and the talker that they stand for. -/
def IsTalker (text talker : String) : Prop :=
  ∃ c d, Text.trim text.toList = [c, d] ∧ c.isAlpha = true ∧ d.isAlpha = true ∧
    talker = String.ofList [c.toUpper, d.toUpper]

theorem flag?_eq_some_iff : flag? text = some x ↔ IsFlag text x := by
  have hdisjoint : ∀ word ∈ flagWords true, word ∉ flagWords false := by decide
  unfold flag? IsFlag
  dsimp only
  split
  case isTrue htrue =>
    cases x with
    | true => exact iff_of_true rfl htrue
    | false => exact iff_of_false nofun (hdisjoint _ htrue)
  case isFalse htrue =>
    split
    case isTrue hfalse =>
      cases x with
      | true => exact iff_of_false nofun htrue
      | false => exact iff_of_true rfl hfalse
    case isFalse hfalse =>
      cases x with
      | true => exact iff_of_false nofun htrue
      | false => exact iff_of_false nofun hfalse

theorem natural?_eq_some_iff :
    natural? greatest text = some n ↔ IsNumber 0 greatest text n := by
  rw [natural?, Text.natural?_eq_some_iff]
  exact ⟨fun ⟨hnumeral, hvalue, hle⟩ => ⟨hnumeral, hvalue, n.zero_le, hle⟩,
    fun h => ⟨h.numeral, h.value, h.le_greatest⟩⟩

theorem channel?_eq_some_iff : channel? text = some c ↔ IsChannel text c := by
  unfold channel? IsChannel isChannelName
  split
  case h_1 d hd =>
    rw [hd, Option.ite_none_right_eq_some, Option.some.injEq, List.singleton_inj]
    constructor
    · rintro ⟨halphanum, rfl⟩
      exact ⟨rfl, halphanum⟩
    · rintro ⟨rfl, halphanum⟩
      exact ⟨halphanum, rfl⟩
  case h_2 hne => exact iff_of_false nofun fun h => hne c h.1

/-- Letters can be a talker in either case. -/
theorem isTalkerName_upper {cs : List Char} :
    isTalkerName (String.ofList (cs.map Char.toUpper)) = true ↔
      ∃ c d, cs = [c, d] ∧ c.isAlpha = true ∧ d.isAlpha = true := by
  rw [isTalkerName, String.length_ofList, String.toList_ofList, List.length_map, Bool.and_eq_true,
    decide_eq_true_iff, List.length_eq_two, List.all_map]
  have hletters : (Char.isAlpha ∘ Char.toUpper) = Char.isAlpha := funext Text.isAlpha_toUpper
  rw [hletters]
  constructor
  · rintro ⟨⟨c, d, rfl⟩, hall⟩
    have hletter := List.all_eq_true.mp hall
    have hd : d ∈ [c, d] := List.mem_cons_of_mem c List.mem_cons_self
    exact ⟨c, d, rfl, hletter c List.mem_cons_self, hletter d hd⟩
  · rintro ⟨c, d, rfl, hc, hd⟩
    exact ⟨⟨c, d, rfl⟩, List.all_eq_true.mpr
      (List.forall_mem_cons.mpr ⟨hc, List.forall_mem_singleton.mpr hd⟩)⟩

theorem talker?_eq_some_iff : talker? text = some name ↔ IsTalker text name := by
  have hupper : Text.upper (Text.trimmed text) =
      String.ofList ((Text.trim text.toList).map Char.toUpper) := by
    rw [Text.upper, Text.trimmed, String.toList_ofList]
  unfold talker? IsTalker
  dsimp only
  rw [hupper, Option.ite_none_right_eq_some, isTalkerName_upper, Option.some.injEq]
  constructor
  · rintro ⟨⟨c, d, hcs, hc, hd⟩, rfl⟩
    exact ⟨c, d, hcs, hc, hd, by rw [hcs]; rfl⟩
  · rintro ⟨c, d, hcs, hc, hd, rfl⟩
    exact ⟨⟨c, d, hcs, hc, hd⟩, by rw [hcs]; rfl⟩

theorem IsTalker.isTalkerName (h : IsTalker text name) : isTalkerName name = true := by
  obtain ⟨c, d, -, hc, hd, rfl⟩ := h
  have hpair : [c.toUpper, d.toUpper] = [c, d].map Char.toUpper := rfl
  rw [hpair, isTalkerName_upper]
  exact ⟨c, d, rfl, hc, hd⟩

/-! ## Settings of their own -/

/-- A setting that is read from one variable: what an acceptable text says, or else the default. -/
structure ReadFrom (name : String) (Says : String → α → Prop) (default : α)
    (setting : Environment → α) : Prop where
  congr : ∀ env env', env name = env' name → setting env = setting env'
  said : ∀ env text a, env name = some text → Says text a → setting env = a
  missing : ∀ env, (∀ text a, env name = some text → ¬ Says text a) → setting env = default

variable {Says : String → α → Prop} {default : α} {setting : Environment → α}

theorem readFrom_of_parse (parse : String → Option α)
    (hsetting : ∀ env, setting env = ((env name).bind parse).getD default)
    (hparse : ∀ text a, parse text = some a ↔ Says text a) : ReadFrom name Says default setting where
  congr env env' h := by rw [hsetting, hsetting, h]
  said env text a htext ha := by rw [hsetting, htext, Option.bind_some, (hparse text a).mpr ha]; rfl
  missing env h := by
    rw [hsetting]
    cases htext : env name with
    | none => rfl
    | some text =>
      cases ha : parse text with
      | none => rw [Option.bind_some, ha]; rfl
      | some a => exact absurd ((hparse text a).mp ha) (h text a htext)

/-- What holds of the default and of what the acceptable texts say holds of the setting. -/
theorem ReadFrom.holds (h : ReadFrom name Says default setting) {p : α → Prop}
    (hsaid : ∀ text a, Says text a → p a) (hdefault : p default) (env : Environment) :
    p (setting env) := by
  by_cases hsays : ∃ text a, env name = some text ∧ Says text a
  · obtain ⟨text, a, htext, ha⟩ := hsays
    rw [h.said env text a htext ha]
    exact hsaid text a ha
  · rw [h.missing env fun text a htext ha => hsays ⟨text, a, htext, ha⟩]
    exact hdefault

/-! ## The settings that are checked -/

section Sending

open TransmitterSettings

theorem channel_readFrom : ReadFrom "AIS_CHANNEL" IsChannel ({} : TransmitterSettings).channel
    fun env => (ofEnvironment env).channel :=
  readFrom_of_parse channel? (fun _ => rfl) fun _ _ => channel?_eq_some_iff

theorem talker_readFrom : ReadFrom "AIS_TALKER" IsTalker ({} : TransmitterSettings).talker
    fun env => (ofEnvironment env).talker :=
  readFrom_of_parse talker? (fun _ => rfl) fun _ _ => talker?_eq_some_iff

theorem maxFragmentLength_readFrom : ReadFrom "AIS_MAX_FRAGMENT_CHARS" (IsNumber 1 maxNumber)
    ({} : TransmitterSettings).maxFragmentLength fun env => (ofEnvironment env).maxFragmentLength := by
  refine readFrom_of_parse (fun text => (natural? maxNumber text).filter (0 < ·)) (fun env => ?_)
    fun text n => ?_
  · show ((Option.bind _ _).filter _).getD _ = _
    cases env "AIS_MAX_FRAGMENT_CHARS" <;> rfl
  · rw [Option.filter_eq_some_iff, natural?_eq_some_iff, decide_eq_true_iff]
    exact ⟨fun ⟨h, hpos⟩ => ⟨h.numeral, h.value, hpos, h.le_greatest⟩,
      fun h => ⟨⟨h.numeral, h.value, n.zero_le, h.le_greatest⟩, h.least_le⟩⟩

theorem sequenceId_readFrom : ReadFrom "AIS_SEQUENCE_ID" IsSequenceId
    ({} : TransmitterSettings).sequenceId fun env => (ofEnvironment env).sequenceId := by
  refine readFrom_of_parse (fun text => (natural? maxSequenceId text).map (some ∘ UInt8.ofNat))
    (fun env => ?_) fun text id => ?_
  · show ((Option.bind _ _).map _).or none = _
    cases env "AIS_SEQUENCE_ID" with
    | none => rfl
    | some text =>
      rw [Option.bind_some, Option.bind_some]
      cases natural? maxSequenceId text <;> rfl
  · rw [Option.map_eq_some_iff]
    constructor
    · rintro ⟨n, hn, rfl⟩
      have hnumber := natural?_eq_some_iff.mp hn
      have hlt : n < 256 := Nat.lt_of_le_of_lt hnumber.le_greatest (by decide)
      refine ⟨UInt8.ofNat n, rfl, ?_⟩
      rwa [UInt8.toNat_ofNat_of_lt' hlt]
    · rintro ⟨n, rfl, hn⟩
      exact ⟨n.toNat, natural?_eq_some_iff.mpr hn, congrArg some UInt8.ofNat_toNat⟩

theorem check_eq_ok_of {s : TransmitterSettings} (hchannel : isChannelName s.channel = true)
    (htalker : isTalkerName s.talker = true)
    (hid : ∀ id ∈ s.sequenceId, id.toNat ≤ maxSequenceId) (hlength : 0 < s.maxFragmentLength) :
    s.check = .ok () := by
  have hnonzero : ¬ s.maxFragmentLength = 0 := Nat.ne_of_gt hlength
  unfold check
  rw [hchannel, htalker]
  cases hs : s.sequenceId with
  | none => exact if_neg hnonzero
  | some id => exact (if_neg (Nat.not_lt.mpr (hid id hs))).trans (if_neg hnonzero)

/-- Settings from an environment can be used. -/
theorem check_ofEnvironment (env : Environment) : (ofEnvironment env).check = .ok () := by
  refine check_eq_ok_of ?_ ?_ ?_ ?_
  · exact channel_readFrom.holds (p := (isChannelName · = true)) (fun _ _ h => h.2) (by decide) env
  · exact talker_readFrom.holds (p := (isTalkerName · = true)) (fun _ _ h => h.isTalkerName)
      (by decide) env
  · refine sequenceId_readFrom.holds (p := fun id => ∀ n ∈ id, n.toNat ≤ maxSequenceId)
      (fun text id h => ?_) nofun env
    obtain ⟨n, rfl, hn⟩ := h
    exact fun m hm => Option.some.inj hm ▸ hn.le_greatest
  · exact maxFragmentLength_readFrom.holds (p := (0 < ·)) (fun _ _ h => h.least_le) (by decide) env

end Sending

/-- Settings from an environment pass the check, whatever the environment is. Each setting is read from
its own variable and from nothing else, and is the default if there is no such variable or its text is
not acceptable. Whether messages are about the own vessel is not read at all. -/
theorem settings_of_environment :
    (∀ env, (TransmitterSettings.ofEnvironment env).check = .ok ()) ∧
    (∀ env, (TransmitterSettings.ofEnvironment env).ownVessel =
      ({} : TransmitterSettings).ownVessel) ∧
    ReadFrom "AIS_ENABLE_FRAGMENTATION" IsFlag ({} : TransmitterSettings).enableFragmentation
      (fun env => (TransmitterSettings.ofEnvironment env).enableFragmentation) ∧
    ReadFrom "AIS_MAX_FRAGMENT_CHARS" (IsNumber 1 maxNumber)
      ({} : TransmitterSettings).maxFragmentLength
      (fun env => (TransmitterSettings.ofEnvironment env).maxFragmentLength) ∧
    ReadFrom "AIS_CHANNEL" IsChannel ({} : TransmitterSettings).channel
      (fun env => (TransmitterSettings.ofEnvironment env).channel) ∧
    ReadFrom "AIS_SEQUENCE_ID" IsSequenceId ({} : TransmitterSettings).sequenceId
      (fun env => (TransmitterSettings.ofEnvironment env).sequenceId) ∧
    ReadFrom "AIS_TALKER" IsTalker ({} : TransmitterSettings).talker
      (fun env => (TransmitterSettings.ofEnvironment env).talker) ∧
    ReadFrom "AIS_VALIDATE_CHECKSUM" IsFlag ({} : ReceiverSettings).validateChecksum
      (fun env => (ReceiverSettings.ofEnvironment env).validateChecksum) ∧
    ReadFrom "AIS_ENABLE_REASSEMBLY" IsFlag ({} : ReceiverSettings).enableReassembly
      (fun env => (ReceiverSettings.ofEnvironment env).enableReassembly) ∧
    ReadFrom "AIS_MAX_REASSEMBLY_AGE_SECONDS" (IsNumber 0 maxNumber)
      ({} : ReceiverSettings).maxReassemblyAge
      (fun env => (ReceiverSettings.ofEnvironment env).maxReassemblyAge) := by
  have hflag : ∀ text x, flag? text = some x ↔ IsFlag text x := fun _ _ => flag?_eq_some_iff
  exact ⟨check_ofEnvironment, fun _ => rfl,
    readFrom_of_parse flag? (fun _ => rfl) hflag, maxFragmentLength_readFrom, channel_readFrom,
    sequenceId_readFrom, talker_readFrom, readFrom_of_parse flag? (fun _ => rfl) hflag,
    readFrom_of_parse flag? (fun _ => rfl) hflag,
    readFrom_of_parse (natural? maxNumber) (fun _ => rfl) fun _ _ => natural?_eq_some_iff⟩

end Environment

end Transponder
