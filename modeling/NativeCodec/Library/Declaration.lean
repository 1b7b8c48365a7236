import NativeCodec.Text.Blank
import NativeCodec.Text.WordCharacter

set_option autoImplicit false
set_option relaxedAutoImplicit false

namespace NativeCodec.Library

def inWord : Option Char → Bool
  | none => false
  | some c => Text.wordCharacters.contains c

def opensArguments (text : List Char) : Bool :=
  (text.dropWhile fun c => Text.blanks.contains c).head? == some '('

def startsCall (name text : List Char) : Bool :=
  name.isPrefixOf text && opensArguments (text.drop name.length)

def declaresFrom (name : List Char) : Option Char → List Char → Bool
  | _, [] => false
  | before, c :: rest =>
    (inWord before != inWord (some c) && startsCall name (c :: rest)) ||
      declaresFrom name (some c) rest

def declares (declaration name : String) : Bool :=
  declaresFrom name.toList none declaration.toList

end NativeCodec.Library
