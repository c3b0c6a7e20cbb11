import SpendPlanner.Proofs.Configuration
import SpendPlanner.Proofs.Json.Reading

/-!
# Codecs round trip

A codec is lawful if what it writes is plain and is accepted as the value that was written.  Then
the compact text of a value is read back as that value.  The codecs of records, addresses, ring
members, amounts and configurations are lawful because those of their fields are.
-/

namespace SpendPlanner

namespace Json

/-- A codec that reads back what it writes. -/
class Codec.Lawful (α : Type) [Codec α] : Prop where
  isPlain : ∀ a : α, (encode a).IsPlain
  decode?_encode : ∀ a : α, decode? (encode a) = some a

/-- A codec that never writes null, so that null can stand for an absent value. -/
class Codec.Present (α : Type) [Codec α] : Prop where
  encode_ne_null : ∀ a : α, encode a ≠ .null

export Codec.Lawful (isPlain decode?_encode)

section

variable {α : Type} [Codec α]

/-- The text that a lawful codec writes is read back. -/
theorem readAs?_writeAs [Codec.Lawful α] (a : α) : readAs? α (writeAs a) = some a := by
  rw [readAs?, writeAs, String.toList_ofList, read?_write (isPlain a)]
  exact decode?_encode a

end

/-! ## Numbers, strings, lists and options -/

theorem nat?_ofNat (n : ℕ) : (Value.ofNat n).nat? = some n := Decimal.read?_digits n

theorem isPlain_ofNat (n : ℕ) : (Value.ofNat n).IsPlain := by
  rw [Value.ofNat, Value.IsPlain]
  exact ⟨n, rfl⟩

instance : Codec.Lawful UInt64 where
  isPlain w := isPlain_ofNat w.toNat
  decode?_encode w := by
    change (Value.ofNat w.toNat).nat?.bind word? = some w
    rw [nat?_ofNat]
    exact word?_toNat w

instance : Codec.Present UInt64 where
  encode_ne_null _ := nofun

instance : Codec.Lawful String where
  isPlain s := by
    change (Value.string (some s)).IsPlain
    rw [Value.IsPlain]
    rfl
  decode?_encode _ := rfl

theorem plainItems_map {α : Type} [Codec α] [Codec.Lawful α] (items : List α) :
    PlainItems (items.map encode) := by
  induction items with
  | nil =>
      rw [List.map_nil, PlainItems]
      trivial
  | cons a items ih =>
      rw [List.map_cons, PlainItems]
      exact ⟨isPlain a, ih⟩

instance {α : Type} [Codec α] [Codec.Lawful α] : Codec.Lawful (List α) where
  isPlain items := by
    change (Value.array (items.map encode)).IsPlain
    rw [Value.IsPlain]
    exact plainItems_map items
  decode?_encode items := by
    change decodeItems? (items.map encode) = some items
    induction items with
    | nil => rfl
    | cons a items ih =>
        rw [List.map_cons, decodeItems?, decode?_encode, ih]
        rfl

instance {α : Type} [Codec α] [Codec.Lawful α] [Codec.Present α] : Codec.Lawful (Option α) where
  isPlain
    | some a => isPlain a
    | none => by
      change Value.null.IsPlain
      rw [Value.IsPlain]
      trivial
  decode?_encode
    | none => rfl
    | some a => by
      have hpresent := Codec.Present.encode_ne_null a
      have hdecoded := decode?_encode a
      change (match encode a with
        | .null => some none
        | v => (decode? v).map some) = some (some a)
      split
      · next hnull => exact absurd hnull hpresent
      · rw [hdecoded]
        rfl

/-! ## Records of fields -/

theorem plainMembers_map {fields : List (String × Value)}
    (h : ∀ field ∈ fields, field.2.IsPlain) :
    PlainMembers (fields.map fun field => (some field.1, field.2)) := by
  induction fields with
  | nil =>
      rw [List.map_nil, PlainMembers]
      trivial
  | cons field fields ih =>
      obtain ⟨hfield, hfields⟩ := List.forall_mem_cons.mp h
      rw [List.map_cons, PlainMembers]
      exact ⟨rfl, hfield, ih hfields⟩

theorem isPlain_ofFields {fields : List (String × Value)}
    (h : ∀ field ∈ fields, field.2.IsPlain) : (Value.ofFields fields).IsPlain := by
  rw [Value.ofFields, Value.IsPlain]
  exact plainMembers_map h

theorem keyedMembers?_map (fields : List (String × Value)) :
    keyedMembers? (fields.map fun field => (some field.1, field.2)) = some fields := by
  induction fields with
  | nil => rfl
  | cons field fields ih =>
      rw [List.map_cons, keyedMembers?, ih]
      rfl

/-- Where the names of fields are different, every field is found under its name. -/
theorem fieldsOfMembers?_map {names : List String} {fields : List (String × Value)}
    (hnames : fields.map Prod.fst = names) (hnodup : names.Nodup) :
    fieldsOfMembers? names (fields.map fun field => (some field.1, field.2)) =
      some (fields.map fun field => some field.2) := by
  subst hnames
  have hcount : ∀ name, fields.countP (fun field => field.1 = name) ≤ 1 := by
    intro name
    have hname := List.nodup_iff_count_le_one.mp hnodup name
    rw [List.count, List.countP_map] at hname
    simpa [Function.comp_def, beq_eq_decide] using hname
  have hfound : ∀ field ∈ fields, fields.find? (fun member => member.1 = field.1) =
      some field := fun field hfield =>
    (find?_key_eq_some_iff hnodup).mpr ⟨hfield, rfl⟩
  rw [fieldsOfMembers?, keyedMembers?_map, Option.bind_eq_bind, Option.bind_some, if_neg]
  · rw [List.map_map]
    refine congrArg some (List.map_congr_left fun field hfield => ?_)
    rw [Function.comp_apply, hfound field hfield]
    rfl
  · simpa using fun name value hfield => hcount name

section fields

variable {β : Type} {names : List String} {fields : List (String × Value)}
  (hnames : fields.map Prod.fst = names) (hnodup : names.Nodup)
  {read : List (Option Value) → Option β} {b : β}
  (hread : read (fields.map fun field => some field.2) = some b)

include hnames hnodup hread

/-- What is read off the values of fields is read off the object that is written with them. -/
theorem bind_fields?_ofFields : ((Value.ofFields fields).fields? names).bind read = some b := by
  rw [Value.ofFields, Value.fields?, fieldsOfMembers?_map hnames hnodup]
  exact hread

theorem bind_leadingFields?_ofFields :
    ((Value.ofFields fields).leadingFields? names).bind read = some b := by
  rw [Value.ofFields, Value.leadingFields?, fieldsOfMembers?_map hnames hnodup]
  exact hread

end fields

theorem required?_encode {α : Type} [Codec α] [Codec.Lawful α] (a : α) :
    required? (some (encode a)) = some a := decode?_encode a

theorem optional?_encode {α : Type} [Codec α] [Codec.Lawful α] (default a : α) :
    optional? default (some (encode a)) = some a := decode?_encode a

end Json

/-! ## Values of the domain -/

open Json

instance : Codec.Lawful TokenId where
  isPlain token := isPlain token.id
  decode?_encode token := by
    change (decode? (encode token.id)).map TokenId.mk = some token
    rw [decode?_encode]
    rfl

instance : Codec.Lawful Amount where
  isPlain a := isPlain_ofFields (by simp [isPlain])
  decode?_encode a := bind_fields?_ofFields (by rfl) (by decide) (by simp [required?_encode])

instance : Codec.Lawful Bytes where
  isPlain bytes := isPlain (Hex.text bytes)
  decode?_encode bytes := by
    change Hex.decode? (Hex.text bytes).toList = some bytes
    rw [Hex.text, String.toList_ofList, Hex.decode?_encode]

instance : Codec.Lawful Bytes32 where
  isPlain b := isPlain b.hex
  decode?_encode b := by
    change (Hex.decode? (Hex.text b.bytes).toList).bind Bytes32.ofBytes? = some b
    rw [Hex.text, String.toList_ofList, Hex.decode?_encode]
    exact b.ofBytes?_bytes

instance : Codec.Lawful PublicKey where
  isPlain key := isPlain key.bytes
  decode?_encode key := by
    change (decode? (encode key.bytes)).map PublicKey.mk = some key
    rw [decode?_encode]
    rfl

instance : Codec.Lawful KeyImage where
  isPlain image := isPlain image.bytes
  decode?_encode image := by
    change (decode? (encode image.bytes)).map KeyImage.mk = some image
    rw [decode?_encode]
    rfl

instance : Codec.Lawful Record where
  isPlain r := isPlain_ofFields (by simp [isPlain])
  decode?_encode r := bind_fields?_ofFields (by rfl) (by decide) (by simp [required?_encode])

instance : Codec.Lawful RingMember where
  isPlain m := isPlain_ofFields (by simp [isPlain])
  decode?_encode m := bind_fields?_ofFields (by rfl) (by decide) (by simp [required?_encode])

instance : Codec.Lawful FogInfo where
  isPlain fog := isPlain_ofFields (by simp [isPlain])
  decode?_encode fog := bind_fields?_ofFields (by rfl) (by decide) (by simp [required?_encode])

instance : Codec.Present FogInfo where
  encode_ne_null _ := nofun

instance : Codec.Lawful Address where
  isPlain a := isPlain_ofFields (by simp [isPlain])
  decode?_encode a :=
    bind_fields?_ofFields (by rfl) (by decide) (by simp [required?_encode, optional?_encode])

instance : Codec.Lawful NetworkKind where
  isPlain network := isPlain network.name
  decode?_encode network := by cases network <;> rfl

instance : Codec.Lawful MinimumFee where
  isPlain fee := isPlain_ofFields (by simp [isPlain])
  decode?_encode fee := bind_fields?_ofFields (by rfl) (by decide) (by simp [required?_encode])

instance : Codec.Lawful Configuration where
  isPlain c := isPlain_ofFields (by simp [isPlain])
  decode?_encode c := bind_leadingFields?_ofFields (by rfl) (by decide) (by simp [optional?_encode])

/-- A configuration that passes its checks is read back, checks included. -/
theorem Configuration.ofJson_writeAs {c : Configuration} (h : c.validate = .ok ()) :
    ofJson (writeAs c) = .ok c := by
  rw [ofJson, readAs?_writeAs]
  simp only [h]

/-- A reader reads back whatever is written, and a text that it accepts may be written anew
without changing what is read. -/
structure Json.ReadsBack {α : Type} (read? : String → Option α) (write : α → String) : Prop where
  written : ∀ a, read? (write a) = some a
  rewritten : ∀ text, ((read? text).bind fun a => read? (write a)) = read? text

theorem Json.readsBack_of_lawful (α : Type) [Codec α] [Codec.Lawful α] :
    ReadsBack (readAs? α) writeAs where
  written := readAs?_writeAs
  rewritten text := by
    cases hread : readAs? α text with
    | none => rfl
    | some a => exact readAs?_writeAs a

/-- What is written of records, addresses, ring members, amounts and confirmation numbers is read
back as it was, and so are configurations that pass their checks. -/
theorem Json.reads_back :
    ReadsBack Record.listOfJson? writeAs ∧
    ReadsBack (readAs? Address) writeAs ∧
    ReadsBack (readAs? RingMember) writeAs ∧
    ReadsBack (readAs? Amount) writeAs ∧
    ReadsBack (readAs? Bytes32) writeAs ∧
    (∀ c : Configuration, c.validate = .ok () → Configuration.ofJson (writeAs c) = .ok c) ∧
    ∀ text, (Configuration.ofJson text >>= fun c => Configuration.ofJson (writeAs c)) =
      Configuration.ofJson text := by
  refine ⟨readsBack_of_lawful _, readsBack_of_lawful _, readsBack_of_lawful _,
    readsBack_of_lawful _, readsBack_of_lawful _, fun _ => Configuration.ofJson_writeAs, ?_⟩
  intro text
  cases hread : Configuration.ofJson text with
  | error error => rfl
  | ok c =>
      have hvalid := Configuration.validate_eq_ok_iff.mpr (Configuration.usable_of_ofJson hread)
      simpa only [bind, Except.bind] using Configuration.ofJson_writeAs hvalid

/-- A fog service may be named with quotes, backslashes and control characters, and a configuration
that passes is read back with its fees. -/
theorem Json.reads_back_odd_names :
    let key : PublicKey := ⟨.repeated 0xab⟩
    let address : Address := ⟨key, key, some ⟨"\"fog\\\x01\n", "ĸ"⟩⟩
    let c : Configuration := ⟨.localnet, some 2, 30, [⟨⟨7⟩, 33⟩]⟩
    readAs? Address (writeAs address) = some address ∧
      c.validate = .ok () ∧
      Configuration.ofJson (writeAs c) = .ok c := by
  intro key address c
  obtain ⟨-, haddress, -, -, -, hconfig, -⟩ := reads_back
  have hvalid : c.validate = .ok () := by rfl
  exact ⟨haddress.written address, hvalid, hconfig c hvalid⟩

end SpendPlanner
