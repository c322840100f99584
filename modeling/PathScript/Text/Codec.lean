/-!
# Codecs

How the bytes of a program become text. Four codecs are known: Latin-1, where
every byte is a character, ASCII, UTF-8, and UTF-8 whose text may begin with a
signature that is not part of it.

A codec is asked for by name. Names are compared by their words: ASCII letters,
digits and points count, in lower case, and whatever stands between two words
counts as one break. Each codec answers to several names.

Decoding stops at the first malformed sequence and says where it is, how long
it is and what is wrong with it. In UTF-8 the sequence reported is the longest
start of a well-formed one.

## Main definitions

* `Codec`: The codecs.
* `Codec.named?`, `Codec.find`: The codec with a given name.
* `DecodeError`: Why bytes could not be decoded.
* `DecodeError.message`: Its wording.
* `Codec.decode`: The text of a sequence of bytes.
* `Codec.encode?`: The bytes of a text, if the codec has them.
* `decodeNamed`: Decoding by the name of a codec.
-/

namespace PathScript

/-- The ways to read bytes as text. -/
inductive Codec where
  | latin1
  | ascii
  | utf8
  | utf8Signature
  deriving DecidableEq

/-- Why bytes are not text under a codec. -/
inductive Malformation where
  /-- No sequence begins with this byte. -/
  | start
  /-- A byte that should continue a sequence does not. -/
  | continuation
  /-- The bytes end inside a sequence. -/
  | truncated
  /-- The byte is not an ASCII character. -/
  | outOfRange
  deriving DecidableEq

/-- Why bytes could not be decoded. A malformed sequence is given by its first
    byte, its position and its length. -/
inductive DecodeError where
  | unknownCodec (name : String)
  /-- The name of a codec has a null character in it. -/
  | nullInName
  | malformed (codec : Codec) (reason : Malformation) (byte : UInt8) (position length : Nat)
  deriving DecidableEq

namespace Codec

/-- Whether a character counts in a codec name: ASCII letters, digits and points
    do. -/
def isNameChar (c : Char) : Bool := c.isAlphanum || c == '.'

/-- The words of a codec name: runs of characters that count, in lower case. -/
def nameWords (name : String) : List String :=
  let runs := name.toList.splitBy fun a b => isNameChar a == isNameChar b
  (runs.filter (·.all isNameChar)).map fun run => String.ofList (run.map Char.toLower)

/-- The name a codec is filed under. -/
def mainNames : Codec → List String
  | .latin1 => ["latin_1", "iso8859_1"]
  | .ascii => ["ascii"]
  | .utf8 => ["utf_8"]
  | .utf8Signature => ["utf_8_sig"]

/-- Further names a codec answers to. In these a point may stand for a break
    between words. -/
def aliases : Codec → List String
  | .latin1 =>
      ["8859", "cp819", "csisolatin1", "ibm819", "iso8859", "iso8859_1", "iso_8859_1",
       "iso_8859_1_1987", "iso_ir_100", "l1", "latin", "latin1"]
  | .ascii =>
      ["646", "ansi_x3.4_1968", "ansi_x3.4_1986", "ansi_x3_4_1968", "cp367", "csascii",
       "ibm367", "iso646_us", "iso_646.irv_1991", "iso_ir_6", "us", "us_ascii"]
  | .utf8 => ["cp65001", "u8", "utf", "utf8", "utf8_ucs2", "utf8_ucs4"]
  | .utf8Signature => []

/-- Every codec. -/
def all : List Codec := [.latin1, .ascii, .utf8, .utf8Signature]

/-- The codec with a given name. -/
def named? (name : String) : Option Codec :=
  let words := "_".intercalate (nameWords name)
  let broken := String.ofList (words.toList.map fun c => if c == '.' then '_' else c)
  all.find? fun codec =>
    codec.mainNames.contains words || codec.aliases.contains words
      || codec.aliases.contains broken

/-- The name a codec goes by in messages. -/
def label : Codec → String
  | .latin1 => "latin-1"
  | .ascii => "ascii"
  | .utf8 => "utf-8"
  | .utf8Signature => "utf-8"

end Codec

/-- The wording of a malformation. -/
def Malformation.message : Malformation → String
  | .start => "invalid start byte"
  | .continuation => "invalid continuation byte"
  | .truncated => "unexpected end of data"
  | .outOfRange => "ordinal not in range(128)"

/-- A byte as two hexadecimal digits. -/
def hexByte (byte : UInt8) : String :=
  let digits := Nat.toDigits 16 byte.toNat
  String.ofList (if digits.length < 2 then '0' :: digits else digits)

/-- The wording of a decoding error. -/
def DecodeError.message : DecodeError → String
  | .unknownCodec name => "unknown encoding: " ++ name
  | .nullInName => "embedded null character"
  | .malformed codec reason byte position length =>
      let place :=
        if length == 1 then
          "byte 0x" ++ hexByte byte ++ " in position " ++ toString position
        else
          "bytes in position " ++ toString position ++ "-" ++ toString (position + length - 1)
      "'" ++ codec.label ++ "' codec can't decode " ++ place ++ ": " ++ reason.message

namespace Utf8

/-- Whether a byte can continue a sequence. -/
def isContinuation (byte : UInt8) : Bool := 0x80 ≤ byte && byte < 0xC0

/-- The six bits a continuing byte carries. -/
def payload (byte : UInt8) : Nat := byte.toNat % 64

/-- Whether the second byte of a sequence of three can follow the first: it may
    not spell a shorter sequence or a surrogate. -/
def canFollowThree (lead second : UInt8) : Bool :=
  isContinuation second
    && (if lead == 0xE0 then 0xA0 ≤ second else if lead == 0xED then second < 0xA0 else true)

/-- Whether the second byte of a sequence of four can follow the first: it may
    not spell a shorter sequence or exceed the last code point. -/
def canFollowFour (lead second : UInt8) : Bool :=
  isContinuation second
    && (if lead == 0xF0 then 0x90 ≤ second else if lead == 0xF4 then second < 0x90 else true)

/-- The characters of a sequence of bytes that begins at `position`. -/
def decode (position : Nat) : List UInt8 → Except DecodeError (List Char)
  | [] => .ok []
  | lead :: rest =>
      let fail (reason : Malformation) (length : Nat) : Except DecodeError (List Char) :=
        .error (.malformed .utf8 reason lead position length)
      if lead < 0x80 then
        (decode (position + 1) rest).map (Char.ofNat lead.toNat :: ·)
      else if lead < 0xC2 || 0xF4 < lead then fail .start 1
      else if lead < 0xE0 then
        match rest with
        | [] => fail .truncated 1
        | second :: rest =>
            if isContinuation second then
              (decode (position + 2) rest).map
                (Char.ofNat (lead.toNat % 32 * 64 + payload second) :: ·)
            else fail .continuation 1
      else if lead < 0xF0 then
        match rest with
        | [] => fail .truncated 1
        | second :: rest =>
            if !canFollowThree lead second then fail .continuation 1
            else
              match rest with
              | [] => fail .truncated 2
              | third :: rest =>
                  if isContinuation third then
                    (decode (position + 3) rest).map
                      (Char.ofNat ((lead.toNat % 16 * 64 + payload second) * 64
                        + payload third) :: ·)
                  else fail .continuation 2
      else
        match rest with
        | [] => fail .truncated 1
        | second :: rest =>
            if !canFollowFour lead second then fail .continuation 1
            else
              match rest with
              | [] => fail .truncated 2
              | third :: rest =>
                  if !isContinuation third then fail .continuation 2
                  else
                    match rest with
                    | [] => fail .truncated 3
                    | fourth :: rest =>
                        if isContinuation fourth then
                          (decode (position + 4) rest).map
                            (Char.ofNat (((lead.toNat % 8 * 64 + payload second) * 64
                              + payload third) * 64 + payload fourth) :: ·)
                        else fail .continuation 3

/-- The bytes of a character. -/
def encodeChar (c : Char) : List UInt8 :=
  let code := c.toNat
  let continuing (n : Nat) : UInt8 := UInt8.ofNat (0x80 + n % 64)
  if code < 0x80 then [UInt8.ofNat code]
  else if code < 0x800 then [UInt8.ofNat (0xC0 + code / 64), continuing code]
  else if code < 0x10000 then
    [UInt8.ofNat (0xE0 + code / 4096), continuing (code / 64), continuing code]
  else
    [UInt8.ofNat (0xF0 + code / 262144), continuing (code / 4096), continuing (code / 64),
     continuing code]

/-- The signature that may stand before a text and is not part of it. -/
def signature : List UInt8 := [0xEF, 0xBB, 0xBF]

end Utf8

/-- The characters of a sequence of ASCII bytes that begins at `position`. -/
def decodeAscii (position : Nat) : List UInt8 → Except DecodeError (List Char)
  | [] => .ok []
  | byte :: rest =>
      if byte < 0x80 then
        (decodeAscii (position + 1) rest).map (Char.ofNat byte.toNat :: ·)
      else .error (.malformed .ascii .outOfRange byte position 1)

namespace Codec

/-- The characters of a sequence of bytes. Positions in errors count from the
    first byte of the text, after a signature if there is one. -/
def decode (codec : Codec) (bytes : List UInt8) : Except DecodeError (List Char) :=
  match codec with
  | .latin1 => .ok (bytes.map fun byte => Char.ofNat byte.toNat)
  | .ascii => decodeAscii 0 bytes
  | .utf8 => Utf8.decode 0 bytes
  | .utf8Signature =>
      Utf8.decode 0 (if Utf8.signature.isPrefixOf bytes then bytes.drop 3 else bytes)

/-- The bytes of a text, or `none` if it has a character that the codec
    lacks. -/
def encode? (codec : Codec) (text : List Char) : Option (List UInt8) :=
  match codec with
  | .latin1 =>
      if text.all (·.toNat < 0x100) then some (text.map fun c => UInt8.ofNat c.toNat) else none
  | .ascii =>
      if text.all (·.toNat < 0x80) then some (text.map fun c => UInt8.ofNat c.toNat) else none
  | .utf8 => some (text.flatMap Utf8.encodeChar)
  | .utf8Signature => some (Utf8.signature ++ text.flatMap Utf8.encodeChar)

end Codec

/-- The codec with a given name, or why there is none. -/
def Codec.find (name : String) : Except DecodeError Codec :=
  if name.toList.contains '\x00' then .error .nullInName
  else
    match Codec.named? name with
    | some codec => .ok codec
    | none => .error (.unknownCodec name)

/-- The characters of a sequence of bytes under the codec with a given
    name. -/
def decodeNamed (name : String) (bytes : List UInt8) : Except DecodeError (List Char) :=
  match Codec.find name with
  | .ok codec => codec.decode bytes
  | .error e => .error e

end PathScript
