/-!
Comment blocks as they are cut out of a source. Lines count from one and offsets from zero;
a block reaches up to its end offset and not beyond. The code context is a guess at what the
first line of code after the block declares.
-/

namespace DocComment

structure Location where
  startLine : Int
  endLine : Int
  start : Int := 0
  finish : Int := 0
  deriving DecidableEq, Repr, Inhabited

structure CodeContext where
  kind : Option String := none
  name : Option String := none
  parent : Option String := none
  value : String := ""
  line : Option Int := none
  deriving DecidableEq, Repr, Inhabited

structure Block where
  raw : String
  value : String
  location : Option Location := none
  code : Option CodeContext := none
  deriving DecidableEq, Repr, Inhabited

end DocComment
