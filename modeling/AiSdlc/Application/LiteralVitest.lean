import AiSdlc.Application.InnerQuotes
import AiSdlc.Application.RevalidationPlan
import AiSdlc.Js.Words

/-! The commands that run one test file, which are made to fail when the file holds no tests. -/

namespace AiSdlc.Application

open AiSdlc.Js

/-- The words of `(?:(?:pnpm|npx)(?:\s+exec)?\s+)?vitest\s+run`. -/
def vitestRuns : List (List (List Char)) :=
  [[], ["pnpm"], ["npx"], ["pnpm", "exec"], ["npx", "exec"]].map fun runner =>
    (runner ++ ["vitest", "run"]).map String.toList

/-- `((?:\s+.*)?)$`. -/
def isTrailing (trailing : List Char) : Bool :=
  trailing.isEmpty
  || trailing.head?.any isWhitespace
      && (trailing.dropWhile isWhitespace).all (!isLineTerminator ·)

/-- Words of which each is followed by `\s+`. -/
def skipWords : List (List Char) → List Char → Option (List Char)
  | [], chars => some chars
  | word :: words, chars =>
      if word.isPrefixOf chars && (chars.drop word.length).head?.any isWhitespace then
        skipWords words ((chars.drop word.length).dropWhile isWhitespace)
      else none

/-- A target in quotation marks, and what is behind it. -/
def quotedTarget (mark : Char) : List Char → Option (List Char × List Char)
  | [] => none
  | char :: inner =>
      match inner.dropWhile (· ≠ mark) with
      | [] => none
      | _ :: trailing =>
          if char = mark && inner.takeWhile (· ≠ mark) ≠ [] && isTrailing trailing then
            some (inner.takeWhile (· ≠ mark), trailing)
          else none

/-- A target without white space, and what is behind it. -/
def bareTarget (chars : List Char) : Option (List Char × List Char) :=
  let target := chars.takeWhile (!isWhitespace ·)
  let trailing := chars.dropWhile (!isWhitespace ·)
  if target ≠ [] && isTrailing trailing then some (target, trailing) else none

/-- `(?:"([^"]+)"|'([^']+)'|([^\s]+))((?:\s+.*)?)$`. -/
def vitestTarget (rest : List Char) : Option (List Char × List Char) :=
  (quotedTarget '"' rest).or ((quotedTarget '\'' rest).or (bareTarget rest))

/-- `DIRECT_VITEST_RUN.exec(command)`: the target, and what is behind it. -/
def directVitestRun (command : List Char) : Option (List Char × List Char) :=
  (vitestRuns.findSome? (skipWords · command)).bind vitestTarget

/-- The texts of `\.(?:test|spec)\.[cm]?[jt]sx?`. -/
def testFileEndings : List (List Char) :=
  [".test.", ".spec."].flatMap fun kind =>
    ["", "c", "m"].flatMap fun module =>
      ["js", "jsx", "ts", "tsx"].map fun language => (kind ++ module ++ language).toList

/-- `LITERAL_TEST_FILE.test(target)`. -/
def isLiteralTestFile (target : List Char) : Bool :=
  let name := target.rtakeWhile (· ≠ '/')
  testFileEndings.any fun ending => ending.isSuffixOf name && ending.length < name.length

/-- `GLOB_METACHARACTERS.test(target)`. -/
def hasGlob (target : List Char) : Bool :=
  target.any (· ∈ ['*', '?', '[', '{'])

/-- `/(?:&&|\|\||[;|<>])/.test(text)`. -/
def hasShellOperator (text : List Char) : Bool :=
  ['&', '&'] <:+: text || ['|', '|'] <:+: text || text.any (· ∈ [';', '|', '<', '>'])

/-- `--config`, and `-c`. -/
def isConfigOption (arg : List Char) : Bool :=
  arg = "--config".toList || arg = "-c".toList

def passWithNoTests : List Char :=
  "--passWithNoTests".toList

/-- The texts that `PASS_WITH_NO_TESTS` matches as a whole. -/
def noTestsSettings : List (List Char) :=
  ["", "=true", "=false"].map fun value => passWithNoTests ++ value.toList

/-- `--passWithNoTests=false`. -/
def failWithNoTests : List Char :=
  passWithNoTests ++ "=false".toList

/-- What is behind the match of `--passWithNoTests(?:=(?:true|false))?`, set to `=false`. -/
def setFalse (behind : List Char) : List Char :=
  "=false".toList
    ++ if "=true".toList.isPrefixOf behind then behind.drop 5
      else if "=false".toList.isPrefixOf behind then behind.drop 6
      else behind

-----------------------------------------------------------------------------------------
-- Commands that are texts
-----------------------------------------------------------------------------------------

/-- The loop over the trailing words: besides options there is only what `--config` takes. -/
def onlyOptions : List (List Char) → Bool
  | [] => true
  | arg :: rest =>
      if isConfigOption arg then
        match rest with
        | [] => true
        | _ :: rest => onlyOptions rest
      else ['-'].isPrefixOf arg && onlyOptions rest

/-- The target of a literal run of one test file, and what is behind it. -/
def literalRun? (command : List Char) : Option (List Char × List Char) :=
  (directVitestRun command).filter fun (target, trailing) =>
    isLiteralTestFile target && !hasGlob target && !hasShellOperator trailing
    && onlyOptions (charWords trailing)

def makeLiteralVitestStringStrict (command : List Char) : List Char :=
  match literalRun? command with
  | none => command
  | some _ =>
      if passWithNoTests <:+: command then editFirst passWithNoTests setFalse command
      else command ++ ' ' :: failWithNoTests

-----------------------------------------------------------------------------------------
-- Commands that are tokens
-----------------------------------------------------------------------------------------

/-- The runners of commands that are tokens. -/
def argvRuns : List (List (List Char)) :=
  [["vitest", "run"], ["pnpm", "vitest", "run"], ["pnpm", "exec", "vitest", "run"],
    ["npx", "vitest", "run"]].map (·.map String.toList)

/-- What is behind the words of a runner: the target, and the other tokens. -/
def argvTarget (run command : List (List Char)) : Option (List Char × List (List Char)) :=
  match command.drop run.length with
  | target :: trailing => if run.isPrefixOf command then some (target, trailing) else none
  | [] => none

def parseVitestArgv (command : List (List Char)) : Option (List Char × List (List Char)) :=
  argvRuns.findSome? (argvTarget · command)

/-- Whether a token is neither an option nor behind `--config`. -/
def hasExtraPositional (previous : Option (List Char)) : List (List Char) → Bool
  | [] => false
  | arg :: rest =>
      !previous.any isConfigOption && !(['-'].isPrefixOf arg)
      || hasExtraPositional (some arg) rest

def literalArgvRun? (command : List (List Char)) : Option (List Char × List (List Char)) :=
  (parseVitestArgv command).filter fun (target, trailing) =>
    isLiteralTestFile target && !hasGlob target && !hasExtraPositional none trailing

/-- The first setting is set to false and the others are removed; where there is none, it is
appended.
-/
def setArgvFalse (command : List (List Char)) : List (List Char) :=
  match command.findIdx? (· ∈ noTestsSettings) with
  | some passWithNoTestsIdx =>
      let mapped := command.mapIdx fun idx arg =>
        if idx = passWithNoTestsIdx then failWithNoTests else arg
      (mapped.zipIdx.filter fun (arg, idx) =>
        idx = passWithNoTestsIdx || !(arg ∈ noTestsSettings)).map Prod.fst
  | none => command ++ [failWithNoTests]

def makeLiteralVitestArgvStrict (command : List (List Char)) : List (List Char) :=
  if (literalArgvRun? command).isSome then setArgvFalse command else command

def makeLiteralVitestCommandStrict : ValidationCommand → ValidationCommand
  | .text command => .text (.ofList (makeLiteralVitestStringStrict command.toList))
  | .tokens command =>
      .tokens ((makeLiteralVitestArgvStrict (command.map String.toList)).map String.ofList)

/-- Tests of the source. -/
example
    : makeLiteralVitestCommandStrict (.text "vitest run \"src/foo.test.ts\"")
        = .text "vitest run \"src/foo.test.ts\" --passWithNoTests=false"
      ∧ makeLiteralVitestCommandStrict (.text "DATABASE_URL=x vitest run src/foo.test.ts")
        = .text "DATABASE_URL=x vitest run src/foo.test.ts"
      ∧ makeLiteralVitestCommandStrict
          (.tokens ["npx", "vitest", "run", "src/foo.test.js", "--passWithNoTests=true"])
        = .tokens ["npx", "vitest", "run", "src/foo.test.js", "--passWithNoTests=false"] := by
  decide

end AiSdlc.Application
