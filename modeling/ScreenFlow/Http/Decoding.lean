import ScreenFlow.Handler.Response
import ScreenFlow.Http.Response
import ScreenFlow.Json.Reader
import ScreenFlow.Text.Chars
import ScreenFlow.Text.Percent

/-!
# Decoding replies

An attachment is always taken as one. Otherwise the wanted shape decides, and without one the content
type: JSON that cannot be read becomes text, and what is neither JSON nor text stays binary.

The parameters of a content disposition are cut at semicolons. A percent-encoded name comes before a
plain one; of several plain ones the last counts.
-/

namespace ScreenFlow.Disposition

/-- A parameter's name in lower case and its value, without the blanks around them. -/
def parameter? (piece : List Char) : Option (List Char × List Char) :=
  (Text.splitAt? ['='] (Text.trimChars piece)).map fun (key, value) =>
    ((Text.trimChars key).map Text.lowerAscii, Text.trimChars value)

def parameters (disposition : String) : List (List Char × List Char) :=
  (Text.splitChars ';' disposition.toList).filterMap parameter?

/-- The encoded text after the character set and the language, or all of it. -/
def encodedPart (value : List Char) : List Char :=
  match Text.splitAt? ['\''] value with
  | some (_, rest) =>
    match Text.splitAt? ['\''] rest with
    | some (_, encoded) => encoded
    | none => value
  | none => value

def extendedName? (p : List Char × List Char) : Option String :=
  if p.1 = "filename*".toList then
    some (Percent.decodeLossy (String.ofList (encodedPart p.2)))
  else none

def plainName? (p : List Char × List Char) : Option String :=
  if p.1 = "filename".toList then some (String.ofList (Text.trimMatches '"' p.2)) else none

/-- The file name of an attachment, if it has one that is not empty. -/
def filename? (disposition : String) : Option String :=
  let ps := parameters disposition
  ((ps.filterMap extendedName?).find? (!·.isEmpty)).or
    ((ps.filterMap plainName?).filter (!·.isEmpty)).getLast?

def isAttachment (disposition : String) : Bool :=
  Text.startsWith (Text.lower (Text.trimStart disposition)) "attachment"

end ScreenFlow.Disposition

namespace ScreenFlow

namespace Reply

def defaultAttachmentName : String := "download"

/-- The media type in lower case, without its parameters; empty if there is none. -/
def mediaType (contentType : Option String) : String :=
  match contentType with
  | some type =>
    Text.lower (Text.trim (String.ofList ((Text.splitChars ';' type.toList).headD [])))
  | none => ""

def isJsonType (mime : String) : Bool := mime == "application/json" || Text.endsWith mime "+json"

def isTextType (mime : String) : Bool :=
  Text.startsWith mime "text/" || Text.contains mime "xml" || Text.contains mime "javascript" ||
    mime.isEmpty

def impliedType (mime : String) : ResponseType :=
  if isJsonType mime then .json else if isTextType mime then .text else .blob

def asText (r : Reply) : ResponseBody := .text (Utf8.decodeLossy r.body)

def asJson (r : Reply) : ResponseBody :=
  match Json.ofBytes? r.body with
  | some v => .json v
  | none => r.asText

def decode (r : Reply) (expected : Option ResponseType) : ResponseBody :=
  let contentType := r.headers.find? "content-type"
  match (r.headers.find? "content-disposition").filter Disposition.isAttachment with
  | some disposition =>
    .attachment ((Disposition.filename? disposition).getD defaultAttachmentName) contentType r.body
  | none =>
    if r.body.isEmpty && expected != some .blob then .empty
    else
      let mime := mediaType contentType
      match expected.getD (impliedType mime) with
      | .json => r.asJson
      -- an untyped body that happens to be JSON is taken as JSON
      | .text => if mime.isEmpty then r.asJson else r.asText
      | .blob => .blob contentType r.body

end Reply

end ScreenFlow
