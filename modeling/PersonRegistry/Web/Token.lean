/-! The characters that make up names in web messages. -/

namespace PersonRegistry.Web

def tokenSigns : List Char := "!#$%&\x27*+-.^_\x60|~".toList

/-- A character of the name of a method, a header or a media type. -/
def isTokenChar (c : Char) : Bool := c.isAlphanum || tokenSigns.contains c

end PersonRegistry.Web
