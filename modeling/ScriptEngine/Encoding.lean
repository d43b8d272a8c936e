import ScriptEngine.Encoding.MultiByte
import ScriptEngine.Text.Blank
import ScriptEngine.Text.Casing
import ScriptEngine.Text.Quoted

namespace ScriptEngine

/-!
# Encodings of source files

A source file is decoded by the encoding that a label names.  Files in UTF-8 have
to be well-formed; the other encodings replace what they cannot decode.
-/

/-!
## Encodings of one byte per character

In these encodings a byte below 128 stands for itself and every other byte for a
character of a table of 128.  Bytes without a character of their own stand for the
control character of the same number.
-/

namespace Encoding

/-- The characters of the bytes from 128 on in IBM code page 866. -/
def upperIbm866 : String :=
  "АБВГДЕЖЗИЙКЛМНОПРСТУФХЦЧШЩЪЫЬЭЮЯабвгдежзийклмноп░▒▓│┤╡╢╖╕╣║╗╝╜╛┐└┴┬├─┼╞╟╚╔╩╦╠═╬╧" ++
  "╨╤╥╙╘╒╓╫╪┘┌█▄▌▐▀рстуфхцчшщъыьэюяЁёЄєЇїЎў°∙·√№¤■\u00a0"

/-- The characters of the bytes from 128 on in KOI8-R. -/
def upperKoi8r : String :=
  "─│┌┐└┘├┤┬┴┼▀▄█▌▐░▒▓⌠■∙√≈≤≥\u00a0⌡°²·÷═║╒ё╓╔╕╖╗╘╙╚╛╜╝╞╟╠╡Ё╢╣╤╥╦╧╨╩╪╫╬©юабцдефгхий" ++
  "клмнопярстужвьызшэщчъЮАБЦДЕФГХИЙКЛМНОПЯРСТУЖВЬЫЗШЭЩЧЪ"

/-- The characters of the bytes from 128 on in Windows code page 1251. -/
def upperWindows1251 : String :=
  "ЂЃ‚ѓ„…†‡€‰Љ‹ЊЌЋЏђ‘’“”•–—\u0098™љ›њќћџ\u00a0ЎўЈ¤Ґ¦§Ё©Є«¬\u00ad®Ї°±Ііґµ¶·ё№є»јЅѕїА" ++
  "БВГДЕЖЗИЙКЛМНОПРСТУФХЦЧШЩЪЫЬЭЮЯабвгдежзийклмнопрстуфхцчшщъыьэюя"

/-- The characters of the bytes from 128 on in Windows code page 1252. -/
def upperWindows1252 : String :=
  "€\u0081‚ƒ„…†‡ˆ‰Š‹Œ\u008dŽ\u008f\u0090‘’“”•–—˜™š›œ\u009džŸ\u00a0¡¢£¤¥¦§¨©ª«¬" ++
  "\u00ad®¯°±²³´µ¶·¸¹º»¼½¾¿ÀÁÂÃÄÅÆÇÈÉÊËÌÍÎÏÐÑÒÓÔÕÖ×ØÙÚÛÜÝÞßàáâãäåæçèéêëìíîïðñòóôõö÷" ++
  "øùúûüýþÿ"

/-- The character of a byte in an encoding with the given upper half. -/
def singleByteChar (upper : Array Char) (byte : UInt8) : Char :=
  if byte < 0x80 then Char.ofNat byte.toNat
  else upper.getD (byte.toNat - 0x80) (Char.ofNat byte.toNat)

/-- Decode a text of one byte per character. -/
def decodeSingleByte (upper : String) (bytes : List UInt8) : List Char :=
  let upper := upper.toList.toArray
  bytes.map (singleByteChar upper)

end Encoding

/-! ## Encodings and their labels -/

/-- The encodings of source files. -/
inductive Encoding where
  | utf8
  | ibm866
  | koi8r
  | windows1251
  | windows1252
  | eucJp
  | shiftJis
  | utf16 (order : Encoding.ByteOrder)
  | userDefined
  | replacement
  deriving DecidableEq, Repr

/-- Why a file cannot be decoded. -/
inductive DecodingFault where
  | invalidUtf8
  | unknownEncoding (label : String)
  deriving DecidableEq, Repr

namespace DecodingFault

/-- The wording of a fault. -/
def message : DecodingFault → String
  | invalidUtf8 => "source is not valid UTF-8; set an encoding"
  | unknownEncoding label =>
      "unknown source encoding " ++ Text.quoted label ++ ": htmlindex: invalid encoding name"

end DecodingFault

namespace Encoding

/-- The encodings with the labels they are known by. -/
def labels : List (Encoding × List String) := [
  (utf8, ["unicode-1-1-utf-8", "utf-8", "utf8"]),
  (ibm866, ["866", "cp866", "csibm866", "ibm866"]),
  (koi8r, ["cskoi8r", "koi", "koi8", "koi8-r", "koi8_r"]),
  (windows1251, ["cp1251", "windows-1251", "x-cp1251"]),
  (windows1252, ["ansi_x3.4-1968", "ascii", "cp1252", "cp819", "csisolatin1", "ibm819",
    "iso-8859-1", "iso-ir-100", "iso8859-1", "iso88591", "iso_8859-1", "iso_8859-1:1987", "l1",
    "latin1", "us-ascii", "windows-1252", "x-cp1252"]),
  (eucJp, ["cseucpkdfmtjapanese", "euc-jp", "x-euc-jp"]),
  (shiftJis, ["csshiftjis", "ms932", "ms_kanji", "shift-jis", "shift_jis", "sjis", "windows-31j",
    "x-sjis"]),
  (utf16 .bigEndian, ["utf-16be"]),
  (utf16 .littleEndian, ["utf-16", "utf-16le"]),
  (userDefined, ["x-user-defined"]),
  (replacement, ["csiso2022kr", "hz-gb-2312", "iso-2022-cn", "iso-2022-cn-ext", "iso-2022-kr",
    "replacement"])]

/-- The encoding of a label in lower case. -/
def ofLabel? (label : String) : Option Encoding :=
  (labels.find? fun entry => entry.2.contains label).map Prod.fst

/-- The character of a byte that is left to the user to define. -/
def userChar (byte : UInt8) : Char :=
  if byte < 0x80 then Char.ofNat byte.toNat else Char.ofNat (0xF780 + (byte.toNat - 0x80))

/-- Decode a byte string; what cannot be decoded is replaced. -/
def decode (encoding : Encoding) (bytes : ByteArray) : String :=
  match encoding with
  | utf8 => Text.decodeSubparts bytes
  | ibm866 => String.ofList (decodeSingleByte upperIbm866 bytes.toList)
  | koi8r => String.ofList (decodeSingleByte upperKoi8r bytes.toList)
  | windows1251 => String.ofList (decodeSingleByte upperWindows1251 bytes.toList)
  | windows1252 => String.ofList (decodeSingleByte upperWindows1252 bytes.toList)
  | eucJp => String.ofList (decodeEucJp bytes.toList)
  | shiftJis => String.ofList (decodeShiftJis bytes.toList)
  | utf16 order => String.ofList (decodeUtf16 order bytes.toList)
  | userDefined => String.ofList (bytes.toList.map userChar)
  | replacement => String.singleton Text.replacementMark

/-- Decode the bytes of a source file by a label, without the mark that may open it. -/
def decodeSource (label : String) (bytes : ByteArray) : Except DecodingFault String :=
  let name := Text.lowerEach (Text.trim label)
  if name = "" || name = "utf-8" || name = "utf8" then
    match Text.decodeUtf8? bytes with
    | some text => .ok (Text.dropByteOrderMark text)
    | none => .error .invalidUtf8
  else
    match ofLabel? name with
    | some encoding => .ok (Text.dropByteOrderMark (encoding.decode bytes))
    | none => .error (.unknownEncoding label)

end Encoding

end ScriptEngine
