import PathRouter.Text.Blank

/-!
# Frame — the stack of a panic

A stack is printed as numbered functions, each perhaps with a line that says where it is.  This file
defines

* `Frame`, one function of a stack, and `Frame.toText`;
* `Frame.parse`, the frames of a printed stack;
* `Frame.trim`, the frames between the machinery of a panic and the place where it is caught.
-/

namespace PathRouter

structure Frame where
  function : Text
  location : Option Text
  deriving DecidableEq, Repr

namespace Frame

/-- A frame as error bodies list it. -/
def toText (f : Frame) : Text :=
  match f.location with
  | none => f.function
  | some location => f.function ++ ['\n', '\t'] ++ location

/-! ## Reading -/

inductive Line where
  | location (place : Text)
  | function (name : Text)
  | other
  deriving DecidableEq

/-- The line with a frame's number, or the one with its place. -/
def line (s : Text) : Line :=
  let s := Text.trim s
  match (['a', 't', ' '] : Text).isPrefixOf? s with
  | some place => .location place
  | none =>
    match Text.breakOn [':', ' '] s with
    | none => .other
    | some (index, function) =>
      if !index.isEmpty && index.all Text.isDigit then .function function else .other

/-- The frames with a place given to the last one, unless it has one. -/
def locate (place : Text) : List Frame → List Frame
  | [] => []
  | [f] => [{ f with location := f.location <|> some place }]
  | f :: rest => f :: locate place rest

/-- The frames after one more line. -/
def readLine (frames : List Frame) (s : Text) : List Frame :=
  match line s with
  | .location place => locate place frames
  | .function name => frames ++ [⟨name, none⟩]
  | .other => frames

def parse (s : Text) : List Frame := (Text.splitOn '\n' s).foldl readLine []

/-! ## Trimming -/

/-- How the names of functions that raise a panic begin. -/
def machineryStarts : List String :=
  [ "std::", "core::", "alloc::", "<std::", "<core::", "<alloc::", "rust_begin_unwind",
    "__rust" ]

/-- What the names of functions that catch a panic contain. -/
def boundaryMarks : List String :=
  [ "panicking::try", "panicking::catch_unwind", "panic::catch_unwind",
    "error::recover::recover" ]

/-- Whether a function belongs to the raising of a panic. -/
def isMachinery (function : Text) : Bool :=
  machineryStarts.any (fun start => start.toList.isPrefixOf function) ||
    Text.contains "recover::install_hook".toList function

/-- Whether a function catches panics. -/
def isBoundary (function : Text) : Bool :=
  boundaryMarks.any fun mark => Text.contains mark.toList function

def trim (frames : List Frame) : List Frame :=
  (frames.dropWhile fun f => isMachinery f.function).takeWhile fun f => !isBoundary f.function

end Frame
end PathRouter
