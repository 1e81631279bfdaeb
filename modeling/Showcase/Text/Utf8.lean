namespace Showcase

abbrev Bytes := List UInt8

namespace Text

def utf8 (text : String) : Bytes := text.toUTF8.data.toList

def ofUtf8? (bytes : Bytes) : Option String := String.fromUTF8? ⟨bytes.toArray⟩

end Text

end Showcase
