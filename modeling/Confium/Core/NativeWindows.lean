import Confium.Lib.Lines

/-!
# Loading the Native Extension

Which build of the native extension is loaded. A platform gem ships one build for
each window of Ruby versions that share an ABI, in a directory named after the
first of them, and a source build is installed flat, in no such directory.

`candidates` is the pure half: the windows worth trying for a Ruby version, in
order. `load` is the loader of `confium.rb`: it keeps the candidates whose file
is there, tries them in order until one loads, and falls back on the flat build
when there are none. A build that is there and does not load is passed over for
the next candidate, as long as it fails with a `LoadError`; nothing else is
rescued.

The file system, `require_relative` and the comparison of `Gem::Version` are
parameters.

## Main definitions

* `Gem`, `Gem.Numeric`: The comparison of versions, and what is relied on of it.
* `Gem.dotted`: A comparison to rely on.
* `candidates`: The windows to try for a Ruby version.
* `LoadExn`: What loading raises.
* `LoadEnv`: What the loader finds.
* `load`: The loader.

## Theorems

* `Gem.dotted_numeric`: The comparison is one to rely on.
-/

namespace Confium

open Ruby

namespace NativeWindows

/-- `Gem::Version.new(a) >= Gem::Version.new(b)`, with the message of the
    `ArgumentError` for what is no version. -/
structure Gem where
  ge : Text → Text → Except String Bool

/-- Numbers joined by dots. -/
def dottedText (segments : List Nat) : Text := ['.'].intercalate (segments.map (Nat.toDigits 10))

/-- The order of versions: the first segments that differ decide, and a segment
    that is missing counts as zero. -/
def segmentsGe : List Nat → List Nat → Bool
  | _, [] => true
  | [], b :: bs => b == 0 && segmentsGe [] bs
  | a :: as, b :: bs => decide (b < a) || (a == b && segmentsGe as bs)

/-- Dotted numbers are compared as numbers. -/
def Gem.Numeric (gem : Gem) : Prop :=
  ∀ a b : List Nat, a ≠ [] → b ≠ [] →
    gem.ge (dottedText a) (dottedText b) = .ok (segmentsGe a b)

/-- The comparison of dotted numbers. -/
def Gem.dotted : Gem where
  ge := fun a b =>
    .ok (segmentsGe ((a.splitOn '.').map (Nat.ofDigitChars 10 · 0))
      ((b.splitOn '.').map (Nat.ofDigitChars 10 · 0)))

/-- `ArgumentError`: what choosing the candidates raises. -/
inductive WindowExn where
  | notARubyVersion (version : Text)
  | malformedVersion (message : String)
  deriving DecidableEq

/-- `e.message`, with `inspect` the `inspect` of a string. -/
def WindowExn.message (inspect : Text → String) : WindowExn → String
  | .notARubyVersion version => "not a ruby version: " ++ inspect version
  | .malformedVersion message => message

/-- `version[/\A\d+\.\d+/]`. -/
def minorOf (version : Text) : Option Text :=
  match version.dropWhile Char.isDigit with
  | '.' :: rest =>
    if (version.takeWhile Char.isDigit).isEmpty || (rest.takeWhile Char.isDigit).isEmpty then none
    else some (version.takeWhile Char.isDigit ++ '.' :: rest.takeWhile Char.isDigit)
  | _ => none

/-- `version[/\A\d+/].to_i`. -/
def majorOf (version : Text) : Nat := Nat.ofDigitChars 10 (version.takeWhile Char.isDigit) 0

/-- `candidates`. -/
def candidates (gem : Gem) (rubyVersion : Text) : Except WindowExn (List Text) :=
  match minorOf rubyVersion with
  | none => .error (.notARubyVersion rubyVersion)
  | some minor =>
    -- The versions are only compared within the 3.x line.
    if majorOf rubyVersion = 3 then
      match gem.ge rubyVersion "3.3".toList with
      | .error message => .error (.malformedVersion message)
      | .ok true => .ok [minor, "3.3".toList].eraseDups
      | .ok false => .ok [minor]
    else .ok [minor]

/-- What loading raises. -/
inductive LoadExn where
  | loadError (message : String)
  | other (className message : String)
  deriving DecidableEq

/-- What the loader finds: the version and the suffix of shared libraries, which
    files are there, and what comes of requiring a feature. -/
structure LoadEnv where
  rubyVersion : Text
  dlext : Text
  fileExist : Text → Bool
  requireRelative : Text → Except LoadExn Unit
  inspect : Text → String

/-- How the loader ended: the features it loaded, and what it warned of. -/
structure Loading where
  loaded : List Text
  warning : Option String
  result : Except LoadExn Unit
  deriving DecidableEq

/-- The file of a window. -/
def windowPath (dlext window : Text) : Text :=
  "confium_native/".toList ++ window ++ "/confium_native.".toList ++ dlext

/-- The feature of a window. -/
def windowFeature (window : Text) : Text :=
  "confium_native/".toList ++ window ++ "/confium_native".toList

/-- The feature of a flat build. -/
def flatFeature : Text := "confium_native/confium_native".toList

/-- The candidates whose file is there. -/
def LoadEnv.present (env : LoadEnv) (windows : List Text) : List Text :=
  windows.filter (fun window => env.fileExist (windowPath env.dlext window))

/-- One `require_relative`. -/
def requireFeature (env : LoadEnv) (feature : Text) : Loading :=
  match env.requireRelative feature with
  | .ok () => ⟨[feature], none, .ok ()⟩
  | .error e => ⟨[], none, .error e⟩

/-- `windowed.each`, with the last window of all. -/
def eachWindow (env : LoadEnv) (last : Option Text) : List Text → Loading
  | [] => ⟨[], none, .ok ()⟩
  | window :: rest =>
    match env.requireRelative (windowFeature window) with
    | .ok () => ⟨[windowFeature window], none, .ok ()⟩
    | .error (.loadError message) =>
      if some window = last then ⟨[], none, .error (.loadError message)⟩
      else eachWindow env last rest
    | .error e => ⟨[], none, .error e⟩

/-- The `begin` block of the loader. -/
def loadWindows (gem : Gem) (env : LoadEnv) : Loading :=
  match candidates gem env.rubyVersion with
  | .error e => ⟨[], none, .error (.other "ArgumentError" (e.message env.inspect))⟩
  | .ok windows =>
    if env.present windows = [] then requireFeature env flatFeature
    else eachWindow env (env.present windows).getLast? (env.present windows)

/-- The loader: a `LoadError` is raised again after a hint. -/
def load (gem : Gem) (env : LoadEnv) : Loading :=
  let loading := loadWindows gem env
  match loading.result with
  | .error (.loadError _) =>
    { loading with
      warning := some "confium: native extension not built — run `bundle exec rake compile`" }
  | _ => loading

/-- The digits of a number are read back from between the dots. -/
theorem splitOn_dottedText (segments : List Nat) (h : segments ≠ []) :
    ((dottedText segments).splitOn '.').map (Nat.ofDigitChars 10 · 0) = segments := by
  have hdot : ∀ l ∈ segments.map (Nat.toDigits 10), '.' ∉ l := by
    intro l hl hmem
    rcases List.mem_map.mp hl with ⟨n, _, rfl⟩
    exact absurd (Nat.isDigit_of_mem_toDigits (by omega) (by omega) hmem) (by decide)
  rw [dottedText, List.splitOn_intercalate _ hdot (by rwa [ne_eq, List.map_eq_nil_iff]),
    List.map_map]
  exact (List.map_congr_left (fun n _ => Nat.ofDigitChars_ten_toDigits)).trans (List.map_id _)

/-- The comparison is one to rely on. -/
theorem Gem.dotted_numeric : Gem.dotted.Numeric := by
  intro a b ha hb
  simp only [Gem.dotted, splitOn_dottedText a ha, splitOn_dottedText b hb]

end NativeWindows

end Confium
