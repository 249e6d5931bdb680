/-! # What can be wrong with compressed data -/

namespace Pinout.Gzip

inductive GzipError where
  | invalidHeader
  | headerFieldTooLong
  /-- The data ends in the header or in the checks behind the stream. -/
  | unexpectedEnd
  | incompleteStream
  | corruptStream
  | checksumMismatch
deriving Repr, DecidableEq

namespace GzipError

def message : GzipError → String
  | invalidHeader => "invalid gzip header"
  | headerFieldTooLong => "gzip header field too long"
  | unexpectedEnd => "unexpected end of file"
  | incompleteStream => "incomplete deflate stream"
  | corruptStream => "corrupt deflate stream"
  | checksumMismatch => "corrupt gzip stream does not have a matching checksum"

end GzipError

end Pinout.Gzip
