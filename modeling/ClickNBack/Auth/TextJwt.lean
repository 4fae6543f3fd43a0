import ClickNBack.Auth.TokenProvider

namespace ClickNBack.Auth

/-- A word in front of others, each character tagged. -/
def encodeWord : List Char → List Char → List Char
  | [], rest => '.' :: rest
  | c :: word, rest => '-' :: c :: encodeWord word rest

def decodeWord : List Char → Option (List Char × List Char)
  | '.' :: rest => some ([], rest)
  | '-' :: c :: rest => (decodeWord rest).map fun r => (c :: r.1, r.2)
  | _ => none

theorem decodeWord_encodeWord (word rest : List Char) :
    decodeWord (encodeWord word rest) = some (word, rest) := by
  induction word with
  | nil => rfl
  | cons c word ih =>
    rw [encodeWord, decodeWord, ih]
    rfl

def encodeField (field : Option String) (rest : List Char) : List Char :=
  match field with
  | none => '?' :: rest
  | some s => '!' :: encodeWord s.toList rest

def decodeField : List Char → Option (Option String × List Char)
  | '?' :: rest => some (none, rest)
  | '!' :: rest => (decodeWord rest).map fun r => (some (String.ofList r.1), r.2)
  | _ => none

theorem decodeField_encodeField (field : Option String) (rest : List Char) :
    decodeField (encodeField field rest) = some (field, rest) := by
  cases field with
  | none => rfl
  | some s =>
    rw [encodeField, decodeField, decodeWord_encodeWord, Option.map_some, String.ofList_toList]

/-- A number as that many strokes. -/
def tally (n : Nat) : String := String.ofList (List.replicate n 'i')

theorem length_tally (n : Nat) : (tally n).length = n := by
  rw [tally, String.length_ofList, List.length_replicate]

def Claims.encode (claims : Claims) : List Char :=
  encodeField claims.userId (encodeField claims.userRole (encodeField (claims.exp.map tally)
    (encodeField claims.tokenType (encodeField claims.jti []))))

def Claims.decode (text : List Char) : Option Claims := do
  let (userId, text) ← decodeField text
  let (userRole, text) ← decodeField text
  let (exp, text) ← decodeField text
  let (tokenType, text) ← decodeField text
  let (jti, _) ← decodeField text
  return ⟨userId, userRole, exp.map String.length, tokenType, jti⟩

theorem Claims.decode_encode (claims : Claims) : decode claims.encode = some claims := by
  have hexp : (claims.exp.map tally).map String.length = claims.exp := by
    rw [Option.map_map]
    simp only [Function.comp_def, length_tally, Option.map_id']
  simp only [decode, encode, decodeField_encodeField, Option.bind_eq_bind, Option.bind_some, hexp]
  rfl

def textJwt : Jwt where
  encode claims := String.ofList claims.encode
  decode token := Claims.decode token.toList

theorem textJwt_decode_encode (claims : Claims) :
    textJwt.decode (textJwt.encode claims) = some claims := by
  change Claims.decode (String.ofList claims.encode).toList = _
  rw [String.toList_ofList, Claims.decode_encode]

end ClickNBack.Auth
