/-!
The ASCII bytes that carry meaning in a command line, and the byte classes that the lexer and
the line reader are stated with.
-/

namespace PipelineShell.Byte

def tab : UInt8 := 0x09

def lineFeed : UInt8 := 0x0a

def carriageReturn : UInt8 := 0x0d

def space : UInt8 := 0x20

def ampersand : UInt8 := 0x26

def greater : UInt8 := 0x3e

def bar : UInt8 := 0x7c

def isFiller (byte : UInt8) : Bool :=
  byte == space || byte == tab || byte == carriageReturn

def isOperator (byte : UInt8) : Bool :=
  byte == bar || byte == ampersand || byte == greater

def isWordByte (byte : UInt8) : Bool :=
  !(isFiller byte || isOperator byte || byte == lineFeed)

end PipelineShell.Byte
