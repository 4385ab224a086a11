import Mathlib.Data.List.Nodup
import Confium.Core.NativeWindows

/-!
# The Extension That Is Loaded

Which windows are tried for a Ruby version, and which build ends up loaded, for
every version and whatever is installed and loads.

The candidates of version `X.Y.Z` are the window `X.Y` and, on the 3.x line past
3.3, the window 3.3 after it. They are distinct and of one major version.

Of the candidates whose file is there, the loader stops at the first that does
not fail with a `LoadError`. If that one loads, it is the one extension loaded.
If it raises something else, the exception leaves the loader and no other
candidate is tried, although one of them may load.

## Main definitions

* `LoadEnv.passedOver`: A window that fails with a `LoadError`.
* `FirstTried`: A window that is there, after others that are passed over.
* `EndsRight`: How the loader has to end.

## Theorems

* `candidates_eq`: The candidates of a version.
* `eachWindow_of_find`, `eachWindow_of_find_none`: Where the loop stops.
* `loader_ends_right`: The candidates and the end of the loader, for every
  version.
-/

namespace Confium

open Ruby

namespace NativeWindows

/-! ### The candidates -/

/-- The digits of a number end at a dot. -/
theorem span_dotted (n : Nat) (rest : Text) :
    (Nat.toDigits 10 n ++ '.' :: rest).takeWhile Char.isDigit = Nat.toDigits 10 n ∧
      (Nat.toDigits 10 n ++ '.' :: rest).dropWhile Char.isDigit = '.' :: rest := by
  refine span_toDigits n ('.' :: rest) (fun c hc => ?_)
  rw [← Option.some.inj hc]
  decide

theorem dottedText_three (x y z : Nat) : dottedText [x, y, z]
    = Nat.toDigits 10 x ++ '.' :: (Nat.toDigits 10 y ++ '.' :: Nat.toDigits 10 z) := by
  rw [dottedText, List.map_cons, List.map_cons, List.map_cons, List.map_nil,
    List.intercalate_cons_cons, List.intercalate_cons_cons, List.intercalate_singleton,
    List.append_assoc, List.append_assoc, List.singleton_append, List.singleton_append]

theorem dottedText_two (x y : Nat) :
    dottedText [x, y] = Nat.toDigits 10 x ++ '.' :: Nat.toDigits 10 y := by
  rw [dottedText, List.map_cons, List.map_cons, List.map_nil, List.intercalate_cons_cons,
    List.intercalate_singleton, List.append_assoc, List.singleton_append]

theorem majorOf_version (x y z : Nat) : majorOf (dottedText [x, y, z]) = x := by
  rw [majorOf, dottedText_three, (span_dotted x _).1, Nat.ofDigitChars_ten_toDigits]

theorem minorOf_version (x y z : Nat) :
    minorOf (dottedText [x, y, z]) = some (dottedText [x, y]) := by
  have hx := span_dotted x (Nat.toDigits 10 y ++ '.' :: Nat.toDigits 10 z)
  have hy := span_dotted y (Nat.toDigits 10 z)
  have hne : ∀ n, (Nat.toDigits 10 n).isEmpty = false :=
    fun n => List.isEmpty_eq_false_iff.mpr Nat.toDigits_ne_nil
  rw [minorOf, dottedText_three, hx.1, hx.2]
  simp only [hy.1, hne, Bool.or_self, Bool.false_eq_true, if_false, dottedText_two]

/-- Different numbers make different windows. -/
theorem dottedText_injective (a b : List Nat) (ha : a ≠ []) (hb : b ≠ [])
    (h : dottedText a = dottedText b) : a = b := by
  rw [← splitOn_dottedText a ha, ← splitOn_dottedText b hb, h]

/-- The candidates of a version. -/
theorem candidates_eq (gem : Gem) (hgem : gem.Numeric) (x y z : Nat) :
    candidates gem (dottedText [x, y, z])
      = .ok (dottedText [x, y] :: if x = 3 ∧ 3 < y then [dottedText [3, 3]] else []) := by
  have hthree : "3.3".toList = dottedText [3, 3] := by decide
  have hge := hgem [x, y, z] [3, 3] (List.cons_ne_nil _ _) (List.cons_ne_nil _ _)
  simp only [candidates, minorOf_version, majorOf_version, hthree, hge]
  by_cases hx : x = 3
  · rw [if_pos hx, hx]
    -- On the 3.x line it depends on where the version stands to the fallback.
    rcases Nat.lt_trichotomy y 3 with hy | hy | hy
    · have hless : segmentsGe [3, y, z] [3, 3] = false := by
        simp only [segmentsGe, lt_irrefl, decide_false, beq_self_eq_true, Bool.true_and,
          Bool.false_or, decide_eq_false (show ¬ 3 < y by omega),
          beq_eq_false_iff_ne.mpr (show y ≠ 3 by omega), Bool.false_and]
      rw [hless, if_neg (fun h => absurd h.2 (by omega))]
    · -- The window of the version is the fallback itself, and is named once.
      rw [hy, if_neg (fun h => absurd h.2 (by omega))]
      rfl
    · have hmore : segmentsGe [3, y, z] [3, 3] = true := by
        simp only [segmentsGe, lt_irrefl, decide_false, beq_self_eq_true, Bool.true_and,
          Bool.false_or, decide_eq_true hy, Bool.true_or]
      have hne : dottedText [3, 3] ≠ dottedText [3, y] := by
        intro h
        have hsame := dottedText_injective _ _ (List.cons_ne_nil _ _) (List.cons_ne_nil _ _) h
        rw [List.cons.injEq, List.cons.injEq] at hsame
        omega
      rw [hmore, if_pos ⟨rfl, hy⟩]
      simp only [List.eraseDups_cons, List.filter_cons, List.filter_nil,
        beq_eq_false_iff_ne.mpr hne, Bool.not_false, if_true, List.eraseDups_nil]
  · rw [if_neg hx, if_neg (fun h => hx h.1)]

/-! ### The loop -/

/-- A window whose build fails with a `LoadError`. -/
def LoadEnv.passedOver (env : LoadEnv) (window : Text) : Bool :=
  match env.requireRelative (windowFeature window) with
  | .error (.loadError _) => true
  | _ => false

theorem passedOver_iff (env : LoadEnv) (window : Text) : env.passedOver window = true ↔
    ∃ message, env.requireRelative (windowFeature window) = .error (.loadError message) := by
  unfold LoadEnv.passedOver
  rcases env.requireRelative (windowFeature window) with (message | ⟨className, message⟩) | _
  · simp only [true_iff]
    exact ⟨message, rfl⟩
  · simp only [Bool.false_eq_true, Except.error.injEq, reduceCtorEq, exists_false]
  · simp only [Bool.false_eq_true, reduceCtorEq, exists_false]

/-- One round of the loop. -/
theorem eachWindow_cons (env : LoadEnv) (last : Option Text) (window : Text) (rest : List Text) :
    (env.passedOver window = false ∧
      eachWindow env last (window :: rest) = requireFeature env (windowFeature window)) ∨
    (∃ message, env.requireRelative (windowFeature window) = .error (.loadError message) ∧
      eachWindow env last (window :: rest)
        = if some window = last then ⟨[], none, .error (.loadError message)⟩
          else eachWindow env last rest) := by
  unfold LoadEnv.passedOver
  rw [eachWindow, requireFeature]
  rcases env.requireRelative (windowFeature window) with (message | ⟨className, message⟩) | _
  · exact Or.inr ⟨message, rfl, rfl⟩
  · exact Or.inl ⟨rfl, rfl⟩
  · exact Or.inl ⟨rfl, rfl⟩

/-- The loop stops at the first window that is not passed over. -/
theorem eachWindow_of_find (env : LoadEnv) (windows : List Text) (window : Text)
    (hnodup : windows.Nodup)
    (h : windows.find? (fun w => !env.passedOver w) = some window) :
    eachWindow env windows.getLast? windows = requireFeature env (windowFeature window) := by
  induction windows with
  | nil => exact absurd h (by simp only [List.find?_nil, reduceCtorEq, not_false_eq_true])
  | cons first rest ih =>
      rcases eachWindow_cons env (first :: rest).getLast? first rest with
        ⟨hpass, heq⟩ | ⟨message, hload, heq⟩
      · rw [List.find?_cons_of_pos (by rw [hpass]; rfl), Option.some.injEq] at h
        rw [heq, h]
      · have hpass : env.passedOver first = true := (passedOver_iff env first).mpr ⟨message, hload⟩
        rw [List.find?_cons_of_neg (by rw [hpass]; exact Bool.false_ne_true)] at h
        cases rest with
        | nil => exact absurd h (by simp only [List.find?_nil, reduceCtorEq, not_false_eq_true])
        | cons next rest =>
            -- The window is not the last one, the windows being distinct.
            rw [List.getLast?_cons_cons] at heq ⊢
            have hlast : some first ≠ (next :: rest).getLast? := by
              intro hfirst
              exact (List.nodup_cons.mp hnodup).1 (List.mem_of_getLast? hfirst.symm)
            rw [heq, if_neg hlast]
            exact ih (List.nodup_cons.mp hnodup).2 h

/-- Where every window is passed over, the loop raises a `LoadError`. -/
theorem eachWindow_of_find_none (env : LoadEnv) (windows : List Text) (hne : windows ≠ [])
    (h : windows.find? (fun w => !env.passedOver w) = none) :
    ∃ message, eachWindow env windows.getLast? windows
      = ⟨[], none, .error (.loadError message)⟩ := by
  induction windows with
  | nil => exact absurd rfl hne
  | cons first rest ih =>
      rcases eachWindow_cons env (first :: rest).getLast? first rest with
        ⟨hpass, _⟩ | ⟨message, _, heq⟩
      · rw [List.find?_cons_of_pos (by rw [hpass]; rfl)] at h
        exact absurd h (by simp only [reduceCtorEq, not_false_eq_true])
      · by_cases hlast : some first = (first :: rest).getLast?
        · exact ⟨message, by rw [heq, if_pos hlast]⟩
        · cases rest with
          | nil => exact absurd rfl hlast
          | cons next rest =>
              rw [heq, if_neg hlast, List.getLast?_cons_cons]
              refine ih (List.cons_ne_nil _ _) ?_
              rw [List.find?_eq_none] at h ⊢
              exact fun w hw => h w (List.mem_cons_of_mem first hw)

/-- A candidate that is there, when every one before it that is there fails with
    a `LoadError`. -/
def FirstTried (env : LoadEnv) (windows : List Text) (window : Text) : Prop :=
  ∃ before after, env.present windows = before ++ window :: after ∧
    ∀ w ∈ before, ∃ message, env.requireRelative (windowFeature w) = .error (.loadError message)

/-- How the loader has to end, for these candidates. -/
structure EndsRight (env : LoadEnv) (windows : List Text) (loading : Loading) : Prop where
  /-- The extension loaded is the first candidate that is there and loads, or the
      flat build when none is there. -/
  loaded : ∀ feature, loading.loaded = [feature] ↔
    (env.present windows = [] ∧ feature = flatFeature ∧
      env.requireRelative flatFeature = .ok ()) ∨
    ∃ window, FirstTried env windows window ∧ feature = windowFeature window ∧
      env.requireRelative (windowFeature window) = .ok ()
  /-- The loader returns when exactly one extension is loaded, and else none is. -/
  returns : (loading.result = .ok () ∧ ∃ feature, loading.loaded = [feature]) ∨
    ((∃ e, loading.result = .error e) ∧ loading.loaded = [])
  /-- It raises a `LoadError` when the flat build does, or every candidate that
      is there. -/
  raisesLoadError : (∃ message, loading.result = .error (.loadError message)) ↔
    (env.present windows = [] ∧
      ∃ message, env.requireRelative flatFeature = .error (.loadError message)) ∨
    (env.present windows ≠ [] ∧ ∀ window ∈ env.present windows,
      ∃ message, env.requireRelative (windowFeature window) = .error (.loadError message))
  /-- Any other exception leaves the loader from the build that raised it. -/
  raisesOther : ∀ className message, loading.result = .error (.other className message) ↔
    (env.present windows = [] ∧
      env.requireRelative flatFeature = .error (.other className message)) ∨
    ∃ window, FirstTried env windows window ∧
      env.requireRelative (windowFeature window) = .error (.other className message)

theorem requireFeature_result (env : LoadEnv) (feature : Text) :
    (requireFeature env feature).result = env.requireRelative feature := by
  rw [requireFeature]
  cases env.requireRelative feature <;> rfl

theorem requireFeature_loaded (env : LoadEnv) (feature other : Text) :
    (requireFeature env feature).loaded = [other] ↔
      other = feature ∧ env.requireRelative feature = .ok () := by
  rw [requireFeature]
  cases env.requireRelative feature with
  | error e => simp only [List.nil_eq, List.cons_ne_self, reduceCtorEq, and_false]
  | ok u => simp only [List.cons.injEq, and_true, eq_comm]

/-- One `require_relative` loads one feature or raises. -/
theorem requireFeature_returns (env : LoadEnv) (feature : Text) :
    ((requireFeature env feature).result = .ok () ∧
        ∃ f, (requireFeature env feature).loaded = [f]) ∨
      ((∃ e, (requireFeature env feature).result = .error e) ∧
        (requireFeature env feature).loaded = []) := by
  rw [requireFeature]
  cases env.requireRelative feature with
  | error e => exact Or.inr ⟨⟨e, rfl⟩, rfl⟩
  | ok u => exact Or.inl ⟨rfl, feature, rfl⟩

/-- The window the loop stops at is the one tried last, and is not passed
    over. -/
theorem find_eq_some_iff (env : LoadEnv) (windows : List Text) (window : Text) :
    (env.present windows).find? (fun w => !env.passedOver w) = some window ↔
      env.passedOver window = false ∧ FirstTried env windows window := by
  rw [List.find?_eq_some_iff_append]
  simp only [Bool.not_not, Bool.not_eq_true', passedOver_iff, FirstTried]

/-- A window that loads or raises another exception is not passed over. -/
theorem passedOver_eq_false {env : LoadEnv} {window : Text} {x : Except LoadExn Unit}
    (h : env.requireRelative (windowFeature window) = x)
    (hx : ∀ message, x ≠ .error (.loadError message)) : env.passedOver window = false := by
  rw [Bool.eq_false_iff, ne_eq, passedOver_iff]
  rintro ⟨message, hmessage⟩
  exact hx message (by rw [← h, hmessage])

theorem FirstTried.present_ne_nil {env : LoadEnv} {windows : List Text} {window : Text}
    (h : FirstTried env windows window) : env.present windows ≠ [] := by
  rcases h with ⟨before, after, heq, _⟩
  rw [heq]
  exact List.append_ne_nil_of_right_ne_nil _ (List.cons_ne_nil _ _)

/-- Without a candidate it all depends on the flat build. -/
theorem endsRight_flat (env : LoadEnv) (windows : List Text) (hnone : env.present windows = []) :
    EndsRight env windows (requireFeature env flatFeature) := by
  have hfirst : ∀ window, ¬ FirstTried env windows window := fun _ h => h.present_ne_nil hnone
  refine ⟨?_, requireFeature_returns env flatFeature, ?_, ?_⟩
  · intro feature
    simp only [requireFeature_loaded, hnone, hfirst, true_and, false_and, exists_false, or_false]
  · simp only [requireFeature_result, hnone, true_and, ne_eq, not_true_eq_false, false_and,
      or_false]
  · intro className message
    simp only [requireFeature_result, hnone, hfirst, true_and, false_and, exists_false, or_false]

/-- With one that is not passed over it all depends on that one. -/
theorem endsRight_window (env : LoadEnv) (windows : List Text) (window : Text)
    (h : (env.present windows).find? (fun w => !env.passedOver w) = some window) :
    EndsRight env windows (requireFeature env (windowFeature window)) := by
  rcases (find_eq_some_iff env windows window).mp h with ⟨hpass, hfirst⟩
  have hsome := hfirst.present_ne_nil
  -- No other window is tried and not passed over.
  have honly : ∀ other, FirstTried env windows other → env.passedOver other = false →
      other = window := by
    intro other hother hnot
    have hfind := (find_eq_some_iff env windows other).mpr ⟨hnot, hother⟩
    rw [h, Option.some.injEq] at hfind
    exact hfind.symm
  have hmem : window ∈ env.present windows := List.mem_of_find?_eq_some h
  -- It did not fail with a `LoadError`, or it had been passed over.
  have hnot : ¬ ∃ message,
      env.requireRelative (windowFeature window) = .error (.loadError message) := by
    rw [← passedOver_iff, hpass]
    exact Bool.false_ne_true
  refine ⟨?_, requireFeature_returns env _, ?_, ?_⟩
  · intro feature
    rw [requireFeature_loaded]
    constructor
    · rintro ⟨hfeature, hok⟩
      exact Or.inr ⟨window, hfirst, hfeature, hok⟩
    · rintro (⟨hnone, _⟩ | ⟨other, hother, hfeature, hok⟩)
      · exact absurd hnone hsome
      · have heq := honly other hother (passedOver_eq_false hok (fun _ hc => nomatch hc))
        rw [heq] at hfeature hok
        exact ⟨hfeature, hok⟩
  · rw [requireFeature_result]
    refine iff_of_false hnot ?_
    rintro (⟨hnone, _⟩ | ⟨_, hall⟩)
    · exact hsome hnone
    · exact hnot (hall window hmem)
  · intro className message
    rw [requireFeature_result]
    constructor
    · intro hraise
      exact Or.inr ⟨window, hfirst, hraise⟩
    · rintro (⟨hnone, _⟩ | ⟨other, hother, hraise⟩)
      · exact absurd hnone hsome
      · rw [← honly other hother (passedOver_eq_false hraise (fun _ hc => nomatch hc))]
        exact hraise

/-- With all of them passed over the loader raises. -/
theorem endsRight_failed (env : LoadEnv) (windows : List Text) (message : String)
    (hsome : env.present windows ≠ [])
    (h : (env.present windows).find? (fun w => !env.passedOver w) = none) :
    EndsRight env windows ⟨[], none, .error (.loadError message)⟩ := by
  have hall : ∀ window ∈ env.present windows, env.passedOver window = true := by
    intro window hmem
    have hnot := List.find?_eq_none.mp h window hmem
    rwa [Bool.not_eq_true', Bool.not_eq_false] at hnot
  have hmem : ∀ window, FirstTried env windows window → window ∈ env.present windows := by
    rintro window ⟨before, after, heq, _⟩
    rw [heq]
    exact List.mem_append_right before List.mem_cons_self
  -- So there is none that loads, and none that raises anything else.
  have hother : ∀ window, FirstTried env windows window → ¬ env.passedOver window = false := by
    intro window hfirst hpass
    rw [hall window (hmem window hfirst)] at hpass
    exact Bool.false_ne_true hpass.symm
  refine ⟨?_, Or.inr ⟨⟨_, rfl⟩, rfl⟩, ?_, ?_⟩
  · intro feature
    refine iff_of_false (fun hc => nomatch hc) ?_
    rintro (⟨hnone, _⟩ | ⟨window, hfirst, _, hok⟩)
    · exact hsome hnone
    · exact hother window hfirst (passedOver_eq_false hok (fun _ hc => nomatch hc))
  · refine iff_of_true ⟨message, rfl⟩ (Or.inr ⟨hsome, ?_⟩)
    intro window hwindow
    exact (passedOver_iff env window).mp (hall window hwindow)
  · intro className text
    refine iff_of_false (fun hc => nomatch hc) ?_
    rintro (⟨hnone, _⟩ | ⟨window, hfirst, hraise⟩)
    · exact hsome hnone
    · exact hother window hfirst (passedOver_eq_false hraise (fun _ hc => nomatch hc))

/-- The hint changes nothing about how the loader ends. -/
theorem endsRight_load (gem : Gem) (env : LoadEnv) (windows : List Text)
    (h : EndsRight env windows (loadWindows gem env)) : EndsRight env windows (load gem env) := by
  have hloaded : (load gem env).loaded = (loadWindows gem env).loaded := by
    rw [load]
    split <;> rfl
  have hresult : (load gem env).result = (loadWindows gem env).result := by
    rw [load]
    split <;> rfl
  refine ⟨?_, ?_, ?_, ?_⟩
  · rw [hloaded]
    exact h.loaded
  · rw [hloaded, hresult]
    exact h.returns
  · rw [hresult]
    exact h.raisesLoadError
  · rw [hresult]
    exact h.raisesOther

/-- The loader ends right for the candidates it has. -/
theorem loadWindows_endsRight (gem : Gem) (env : LoadEnv) (windows : List Text)
    (hwindows : candidates gem env.rubyVersion = .ok windows) (hnodup : windows.Nodup) :
    EndsRight env windows (loadWindows gem env) := by
  simp only [loadWindows, hwindows]
  by_cases hnone : env.present windows = []
  · rw [if_pos hnone]
    exact endsRight_flat env windows hnone
  · rw [if_neg hnone]
    cases hfind : (env.present windows).find? (fun w => !env.passedOver w) with
    | some window =>
        have hpresent : (env.present windows).Nodup := hnodup.filter _
        rw [eachWindow_of_find env _ window hpresent hfind]
        exact endsRight_window env windows window hfind
    | none =>
        rcases eachWindow_of_find_none env _ hnone hfind with ⟨message, heq⟩
        rw [heq]
        exact endsRight_failed env windows message hnone hfind

/-- For every version: the candidates are its own window and, on the 3.x line
    past 3.3, that of 3.3 after it, without repetition or another major version;
    and the loader ends right for them. -/
theorem loader_ends_right (gem : Gem) (hgem : gem.Numeric) (x y z : Nat) (env : LoadEnv)
    (hversion : env.rubyVersion = dottedText [x, y, z]) :
    ∃ windows, candidates gem env.rubyVersion = .ok windows ∧
      windows = dottedText [x, y] :: (if x = 3 ∧ 3 < y then [dottedText [3, 3]] else []) ∧
      windows.Nodup ∧ (∀ window ∈ windows, ∃ minor, window = dottedText [x, minor]) ∧
      EndsRight env windows (load gem env) := by
  have hcandidates : candidates gem env.rubyVersion = .ok
      (dottedText [x, y] :: if x = 3 ∧ 3 < y then [dottedText [3, 3]] else []) := by
    rw [hversion]
    exact candidates_eq gem hgem x y z
  have hnodup : (dottedText [x, y] :: if x = 3 ∧ 3 < y then [dottedText [3, 3]] else []).Nodup := by
    by_cases hline : x = 3 ∧ 3 < y
    · rw [if_pos hline, List.nodup_cons, List.mem_singleton]
      refine ⟨fun h => ?_, List.nodup_singleton _⟩
      have hsame := dottedText_injective _ _ (List.cons_ne_nil _ _) (List.cons_ne_nil _ _) h
      rw [List.cons.injEq, List.cons.injEq] at hsame
      omega
    · rw [if_neg hline]
      exact List.nodup_singleton _
  refine ⟨_, hcandidates, rfl, hnodup, ?_,
    endsRight_load gem env _ (loadWindows_endsRight gem env _ hcandidates hnodup)⟩
  -- Both entries are of the major version itself.
  intro window hwindow
  rcases List.mem_cons.mp hwindow with hown | hfallback
  · exact ⟨y, hown⟩
  · by_cases hline : x = 3 ∧ 3 < y
    · rw [if_pos hline, List.mem_singleton] at hfallback
      exact ⟨3, by rw [hfallback, hline.1]⟩
    · rw [if_neg hline] at hfallback
      exact absurd hfallback List.not_mem_nil

/-- Ruby 3.4.8 with the windows 3.4 and 3.3 installed, and what comes of the
    first. -/
def sampleEnv (newest : Except LoadExn Unit) : LoadEnv where
  rubyVersion := "3.4.8".toList
  dlext := "so".toList
  fileExist := fun path => path = windowPath "so".toList "3.4".toList ||
    path = windowPath "so".toList "3.3".toList
  requireRelative := fun feature =>
    if feature = windowFeature "3.4".toList then newest
    else if feature = windowFeature "3.3".toList then .ok ()
    else .error (.loadError "cannot load such file")
  inspect := fun version => String.ofList version

/-- A build that cannot be linked is passed over for the older window. -/
theorem older_window_loads :
    (load Gem.dotted (sampleEnv (.error (.loadError "undefined symbol")))).loaded
      = [windowFeature "3.3".toList] := by
  rcases loader_ends_right Gem.dotted Gem.dotted_numeric 3 4 8
    (sampleEnv (.error (.loadError "undefined symbol"))) (by decide) with
    ⟨windows, _, hwindows, _, _, hends⟩
  refine (hends.loaded _).mpr (Or.inr ⟨"3.3".toList, ⟨["3.4".toList], [], ?_, ?_⟩, rfl, by decide⟩)
  · rw [hwindows]
    decide
  · intro w hw
    rw [List.mem_singleton] at hw
    rw [hw]
    exact ⟨"undefined symbol", by decide⟩

/-- A build that raises another exception is not: nothing is loaded, although the
    older window is the first candidate that is there and loads. -/
theorem type_error_ends_loader :
    candidates Gem.dotted "3.4.8".toList = .ok ["3.4".toList, "3.3".toList] ∧
      ((sampleEnv (.error (.other "TypeError" "wrong argument type"))).present
        ["3.4".toList, "3.3".toList]).find? (fun window => decide
          ((sampleEnv (.error (.other "TypeError" "wrong argument type"))).requireRelative
            (windowFeature window) = .ok ())) = some "3.3".toList ∧
      load Gem.dotted (sampleEnv (.error (.other "TypeError" "wrong argument type")))
        = ⟨[], none, .error (.other "TypeError" "wrong argument type")⟩ := by
  decide

end NativeWindows

end Confium
