import Bufi.Document.Base64
import Bufi.Document.Json

/-!
# URIs of documents

A document comes in a `data:` URI, as it is or as Base64.  `Host` is what the runtime of a
subgraph does: the hash, the encoding of strings, the parser of JSON, and texts of floats
and of lower-case strings.
-/

namespace Bufi.Document

open Bufi.Evm Bufi.Text Bufi.Js

/-- The runtime of a subgraph. -/
structure Host where
  /-- `crypto.keccak256(input)` -/
  keccak256 : Bytes → Bytes
  /-- `Bytes.fromUTF8(text)` -/
  fromUTF8 : Utf16 → Bytes
  /-- `String.UTF8.decode(bytes)` -/
  decodeUTF8 : Bytes → Utf16
  /-- `json.try_fromString(text)`; `none` is a result that is not ok. -/
  tryFromString : Utf16 → Option JSONValue
  /-- `text.toLowerCase()` -/
  toLowerCase : Utf16 → Utf16
  /-- `x.toString()` of a float -/
  f64Text : Number → Utf16
  /-- What `BigDecimal.fromString(text)` gives for a number. -/
  bigDecimal : Utf16 → ℚ

/-- `bytes.concatI32(n)` -/
def concatI32 (bytes : Bytes) (n : ℕ) : Bytes :=
  bytes ++ [UInt8.ofNat n, UInt8.ofNat (n / 2 ^ 8), UInt8.ofNat (n / 2 ^ 16), UInt8.ofNat (n / 2 ^ 24)]

inductive URIKind
  | NONE
  | DATA
  | IPFS
  | ARWEAVE
  | HTTPS
  | HTTP
  | OTHER
  deriving DecidableEq

/-- The parts of a CAIP-10 account identifier. -/
structure Caip10 where
  namespaceName : Option Utf16
  chainId : Option Utf16
  reference : Option Utf16

def parseCaip10 (value : Utf16) : Caip10 :=
  let parts := value.splitOn (unit ':')
  if parts.length < 3 then ⟨none, none, none⟩
  else ⟨parts[0]?, parts[1]?, some ([unit ':'].intercalate (parts.drop 2))⟩

variable (host : Host)

def base64DecodeToString (input : Utf16) : Option Utf16 :=
  (base64Decode input).map host.decodeUTF8

def hasBase64Marker (info : Utf16) : Bool :=
  (info.splitOn (unit ';')).any (fun segment => host.toLowerCase segment == lit "base64")

/-- The payload of a `data:` URI; `none` is null. -/
def decodeDataUri (uri : Utf16) : Option Utf16 :=
  if (lit "data:").isPrefixOf (host.toLowerCase uri) then
    let rest := uri.drop 5
    if unit ',' ∈ rest then
      let commaIndex := rest.idxOf (unit ',')
      let info := rest.take commaIndex
      let payload := rest.drop (commaIndex + 1)
      let looksLikePlainJson := (lit "\x7b").isPrefixOf payload || (lit "[").isPrefixOf payload
      if hasBase64Marker host info && !looksLikePlainJson then base64DecodeToString host payload
      else some payload
    else none
  else none

def classifyUri (uri : Utf16) : URIKind :=
  if uri.length = 0 then .NONE
  else
    let lower := host.toLowerCase uri
    if (lit "data:").isPrefixOf lower then .DATA
    else if (lit "ipfs://").isPrefixOf lower then .IPFS
    else if (lit "ar://").isPrefixOf lower then .ARWEAVE
    else if (lit "https://").isPrefixOf lower then .HTTPS
    else if (lit "http://").isPrefixOf lower then .HTTP
    else .OTHER

/-- `BigDecimal.fromString(s)` -/
def bigDecimalFromString (s : Utf16) : Except Trap ℚ :=
  if IsBigDecimal s then .ok (host.bigDecimal s) else .error .fromString

end Bufi.Document
