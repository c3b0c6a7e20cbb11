import SpendPlanner.Bytes
import SpendPlanner.Json.Codec
import SpendPlanner.Text.Quoted

/-!
# Keys and addresses

Keys are thirty-two bytes each.  A private key never shows its bytes.  An account holds the
spend keys of its subaddresses in order, and perhaps one for the reserved subaddress that
receives change.  An address may ask for its outputs to be reported to a fog service.
-/

namespace SpendPlanner

instance : Json.Codec Bytes where
  encode bytes := Json.encode (Hex.text bytes)
  decode? v := v.text?.bind fun text => Hex.decode? text.toList

instance : Json.Codec Bytes32 where
  encode b := Json.encode b.hex
  decode? v := v.text?.bind fun text => (Hex.decode? text.toList).bind Bytes32.ofBytes?

/-- A private key. -/
structure PrivateKey where
  bytes : Bytes32
  deriving DecidableEq

/-- The diagnostic form of a private key hides it. -/
def PrivateKey.debugText (_ : PrivateKey) : String := "RistrettoPrivate(<redacted>)"

/-- A public key. -/
structure PublicKey where
  bytes : Bytes32
  deriving DecidableEq

namespace PublicKey

/-- The diagnostic form of a public key. -/
def debugText (key : PublicKey) : String := "RistrettoPublic(" ++ key.bytes.hex ++ ")"

instance : Json.Codec PublicKey where
  encode key := Json.encode key.bytes
  decode? v := (Json.decode? v).map PublicKey.mk

end PublicKey

/-- The fog service that a recipient's outputs are reported to. -/
structure FogInfo where
  reportUrl : String
  reportId : String
  deriving DecidableEq

namespace FogInfo

/-- The diagnostic form of the fog details. -/
def debugText (fog : FogInfo) : String :=
  "FogInfo \x7b report_url: " ++ Quoted.text fog.reportUrl ++
    ", report_id: " ++ Quoted.text fog.reportId ++ " \x7d"

instance : Json.Codec FogInfo where
  encode fog := .ofFields
    [("report_url", Json.encode fog.reportUrl), ("report_id", Json.encode fog.reportId)]
  decode? v := do
    match ← v.fields? ["report_url", "report_id"] with
    | [url, id] => return ⟨← Json.required? url, ← Json.required? id⟩
    | _ => none

end FogInfo

/-- A recipient. -/
structure Address where
  viewKey : PublicKey
  spendKey : PublicKey
  fog : Option FogInfo
  deriving DecidableEq

namespace Address

instance : Json.Codec Address where
  encode a := .ofFields
    [("view_public_key", Json.encode a.viewKey),
     ("spend_public_key", Json.encode a.spendKey),
     ("fog_info", Json.encode a.fog)]
  decode? v := do
    match ← v.fields? ["view_public_key", "spend_public_key", "fog_info"] with
    | [view, spend, fog] =>
      return ⟨← Json.required? view, ← Json.required? spend, ← Json.optional? none fog⟩
    | _ => none

end Address

/-- The keys of an account. -/
structure AccountKey where
  viewKey : PrivateKey
  spendKey : PrivateKey
  /-- The spend keys of the subaddresses, in order. -/
  subaddressKeys : List PrivateKey
  /-- The spend key of the subaddress that receives change. -/
  changeKey : Option PrivateKey
  fog : Option FogInfo
  deriving DecidableEq

namespace AccountKey

/-- The number of the reserved subaddress that receives change. -/
def changeSubaddress : UInt64 := UInt64.ofNat (UInt64.size - 2)

/-- The spend key of a subaddress, if the account has it. -/
def subaddressKey? (account : AccountKey) (subaddress : UInt64) : Option PrivateKey :=
  if subaddress = changeSubaddress then account.changeKey
  else account.subaddressKeys[subaddress.toNat]?

/-- The diagnostic form of an account, which shows none of its keys. -/
def debugText (account : AccountKey) : String :=
  let fog := match account.fog with
    | some fog => "Some(" ++ fog.debugText ++ ")"
    | none => "None"
  "AccountKey \x7b subaddress_count: " ++ Decimal.text account.subaddressKeys.length ++
    ", has_change_key: " ++ (if account.changeKey.isSome then "true" else "false") ++
    ", fog_info: " ++ fog ++ " \x7d"

end AccountKey
end SpendPlanner
