import Assay.Zlib.Bits

namespace Assay.Image

inductive HeaderFault where
  | notText
  | malformedLine (line : String)
  | noDataFile
  | severalFiles (value : String)
  | otherObject (value : String)
  | missing (key : String)
  | dimensionNotANumber
  | dimensionZero
  | badItem (key item : String)
  | wrongCount (key : String) (found expected : Nat)
  | badType (name : String)
  | badChannels
  | tooLarge
  | badHeaderSize
  deriving DecidableEq, Repr

def HeaderFault.message : HeaderFault → String
  | notText => "header is not valid text"
  | malformedLine line => s!"malformed line '{line}'"
  | noDataFile => "missing ElementDataFile"
  | severalFiles value => s!"multi-file ElementDataFile '{value}' is not supported"
  | otherObject value => s!"ObjectType '{value}' is not an image"
  | missing key => s!"missing {key}"
  | dimensionNotANumber => "NDims is not an integer"
  | dimensionZero => "NDims must be positive"
  | badItem key item => s!"{key}: cannot parse '{item}'"
  | wrongCount key found expected => s!"{key} has {found} values, expected {expected}"
  | badType name => s!"unsupported ElementType '{name}'"
  | badChannels => "invalid ElementNumberOfChannels"
  | tooLarge => "DimSize overflows the addressable size"
  | badHeaderSize => "HeaderSize is not an integer"

inductive DataFault where
  | notText
  | fewSamples (found expected : Nat)
  | fewBytes (found expected : Nat)
  | compressed (fault : Zlib.Fault)
  | wrongBuffer (held needed : Nat)
  deriving DecidableEq, Repr

def DataFault.message : DataFault → String
  | notText => "ASCII pixel data is not valid text"
  | fewSamples found expected => s!"found {found} samples, expected {expected}"
  | fewBytes found expected => s!"found {found} bytes, expected {expected}"
  | compressed fault => "zlib: " ++ fault.message
  | wrongBuffer held needed => s!"buffer holds {held} samples, descriptor needs {needed}"

end Assay.Image
