import Confium.Core.TypedErrors

/-!
# The Forms of Constructing an Error

A typed error can be constructed from a message and a Hash of details in three
forms, and they come to the same error. All three reach the class as one message
and one Hash of keywords, so what the class makes of them need not be looked at
for that.

What the class makes of them loses nothing: the attributes are taken out of the
keywords one by one and come back in the details beside the rest.

## Main definitions

* `Symbolised`: A Hash, with every key made a Symbol.

## Theorems

* `symbolise_eq_some`: Symbolising a Hash whose keys stay distinct.
* `args_positional`, `args_keywords`, `args_hash`: The three forms, brought to
  one.
* `get?_detailsOf`: Nothing is lost in the details.
* `construction_forms_agree`: The three forms construct the same error.
-/

namespace Confium

open Ruby

namespace Errors

variable {V : Type} (encodings : Encodings) (null : V)

/-- The Hash `h` with every key made a Symbol. The keys stay distinct, or `hs`
    were no Hash. -/
def Symbolised (h : Hash Key V) (hs : Hash RSymbol V) : Prop :=
  h.entries.map (fun e => (e.1.toSym? encodings, e.2)) = hs.entries.map (fun e => (some e.1, e.2))

/-- A Hash whose keys stay distinct is symbolised entry by entry. -/
theorem symbolise_eq_some (h : Hash Key V) (hs : Hash RSymbol V)
    (hsyms : Symbolised encodings h hs) :
    symbolise encodings h = some hs := by
  -- The induction is over bare entries: the tail of a hash is not a hash.
  have hentries : ∀ (es : List (Key × V)) (ss : List (RSymbol × V)),
      es.map (fun e => (e.1.toSym? encodings, e.2)) = ss.map (fun e => (some e.1, e.2)) →
      es.mapM (fun e => do
        let key ← e.1.toSym? encodings
        return (key, e.2)) = some ss := by
    intro es
    induction es with
    | nil =>
        intro ss hss
        rw [List.map_nil, eq_comm, List.map_eq_nil_iff] at hss
        rw [hss, List.mapM_nil]
        rfl
    | cons e es ih =>
        intro ss hss
        cases ss with
        | nil => exact absurd hss (by simp only [List.map_cons, List.map_nil, reduceCtorEq,
            not_false_eq_true])
        | cons s ss =>
            rw [List.map_cons, List.map_cons, List.cons.injEq, Prod.mk.injEq] at hss
            rw [List.mapM_cons, hss.1.1, ih ss hss.2, hss.1.2]
            rfl
  rw [symbolise, hentries h.entries hs.entries hsyms]
  exact congrArg some (Hash.ofEntries_entries hs)

/-- A Hash of Symbols stays as it is. -/
theorem symbolise_symKeyed (h : Hash RSymbol V) : symbolise encodings (symKeyed h) = some h := by
  refine symbolise_eq_some encodings (symKeyed h) h ?_
  rw [Symbolised, symKeyed, List.map_map]
  rfl

theorem args_positional (message : V) (h : Hash Key V) (hs : Hash RSymbol V)
    (hsyms : Symbolised encodings h hs) :
    Coerce.args encodings null (.value message) (.hash h) Hash.empty = some (message, hs) := by
  rw [Coerce.args, Coerce.message]
  simp only [bind, Option.bind, Coerce.details, symbolise_eq_some encodings h hs hsyms, pure]
  rfl

theorem args_keywords (message : V) (hs : Hash RSymbol V) :
    Coerce.args encodings null (.value message) (.value null) hs = some (message, hs) := rfl

/-- A Hash with one more entry, symbolised. -/
theorem symbolised_insert (h h' : Hash Key V) (hs : Hash RSymbol V) (key : Key) (name : RSymbol)
    (message : V) (before after : List (Key × V)) (hsyms : Symbolised encodings h hs)
    (hwith : h'.entries = before ++ (key, message) :: after)
    (hwithout : h.entries = before ++ after)
    (hkey : key.toSym? encodings = some name) (hname : hs.get? name = none) :
    ∃ hs', Symbolised encodings h' hs' ∧ hs'.get? name = some message ∧ hs'.delete name = hs := by
  rw [Symbolised, hwithout, List.map_append] at hsyms
  -- The symbolised entries split where the message stood among the others.
  rcases List.append_eq_map_iff.mp hsyms with ⟨bs, as, hentries, hbs, has⟩
  -- None of them is the message, so removing it leaves them all.
  have hfresh : ∀ e ∈ bs ++ as, e.1 ≠ name := by
    intro e he hname'
    rw [Hash.get?_eq_none_iff, Hash.keys, hentries] at hname
    exact hname (List.mem_map.mpr ⟨e, he, hname'⟩)
  have hnodup : ((bs ++ (name, message) :: as).map Prod.fst).Nodup := by
    rw [List.map_append, List.map_cons, List.nodup_middle, ← List.map_append, List.nodup_cons,
      ← hentries]
    exact ⟨(Hash.get?_eq_none_iff hs name).mp hname, hs.nodup⟩
  refine ⟨⟨bs ++ (name, message) :: as, hnodup⟩, ?_, ?_, ?_⟩
  · rw [Symbolised, hwith, List.map_append, List.map_cons, List.map_append, List.map_cons, hbs, has,
      hkey]
  · rw [Hash.get?_eq_some_iff]
    exact List.mem_append_right bs List.mem_cons_self
  · apply Hash.ext
    have hkeep : ∀ l : List (RSymbol × V), (∀ e ∈ l, e.1 ≠ name) →
        l.filter (fun e => decide (e.1 ≠ name)) = l :=
      fun l hl => List.filter_eq_self.mpr (fun e he => decide_eq_true (hl e he))
    rw [Hash.delete, hentries]
    simp only [List.filter_append]
    rw [List.filter_cons_of_neg (by simp only [ne_eq, not_true_eq_false, decide_false,
        Bool.false_eq_true, not_false_eq_true]),
      hkeep bs (fun e he => hfresh e (List.mem_append_left as he)),
      hkeep as (fun e he => hfresh e (List.mem_append_right bs he))]

theorem args_hash (message : V) (h h' : Hash Key V) (hs : Hash RSymbol V) (key : Key)
    (before after : List (Key × V)) (hsyms : Symbolised encodings h hs)
    (hwith : h'.entries = before ++ (key, message) :: after)
    (hwithout : h.entries = before ++ after)
    (hkey : key.toSym? encodings = some "message") (hmessage : hs.get? "message" = none) :
    Coerce.args encodings null (.hash h') (.value null) Hash.empty = some (message, hs) := by
  rcases symbolised_insert encodings h h' hs key "message" message before after hsyms hwith hwithout
    hkey hmessage with ⟨hs', hsyms', hget, hdelete⟩
  have hmerge : hs'.merge Hash.empty = hs' := rfl
  rw [Coerce.args, Coerce.message, symbolise_eq_some encodings h' hs' hsyms']
  simp only [bind, Option.bind, Coerce.details, pure, hmerge, hget, hdelete, Option.getD_some]

/-! ### The details -/

theorem takeFields_names (kwargs : Hash RSymbol V) (fields : List String) :
    (takeFields null kwargs fields).1.map Prod.fst = fields := by
  induction fields generalizing kwargs with
  | nil => rfl
  | cons field rest ih => rw [takeFields, List.map_cons, ih]

/-- Taking attributes out leaves every other keyword alone. -/
theorem get?_takeFields (kwargs : Hash RSymbol V) (fields : List String) (k : RSymbol)
    (hk : ∀ field ∈ fields, k ≠ .text field) :
    (takeFields null kwargs fields).2.get? k = kwargs.get? k := by
  induction fields generalizing kwargs with
  | nil => rfl
  | cons field rest ih =>
      rw [takeFields, ih _ (fun f hf => hk f (List.mem_cons_of_mem field hf))]
      exact Hash.get?_delete_ne kwargs field k (hk field List.mem_cons_self)

/-- A keyword that is gone stays gone. -/
theorem get?_takeFields_of_none (kwargs : Hash RSymbol V) (fields : List String) (k : RSymbol)
    (hk : kwargs.get? k = none) : (takeFields null kwargs fields).2.get? k = none := by
  induction fields generalizing kwargs with
  | nil => exact hk
  | cons field rest ih =>
      rw [takeFields]
      refine ih _ ?_
      by_cases heq : k = .text field
      · rw [heq]
        exact Hash.get?_delete_self kwargs field
      · rw [Hash.get?_delete_ne kwargs field k heq]
        exact hk

/-- An attribute has the value of its keyword, which is taken out. -/
theorem mem_takeFields (kwargs : Hash RSymbol V) (fields : List String) (hnodup : fields.Nodup)
    (field : String) (hfield : field ∈ fields) :
    (field, (kwargs.get? field).getD null) ∈ (takeFields null kwargs fields).1 ∧
      (takeFields null kwargs fields).2.get? field = none := by
  induction fields generalizing kwargs with
  | nil => exact absurd hfield List.not_mem_nil
  | cons first rest ih =>
      rw [takeFields]
      rcases List.mem_cons.mp hfield with hfirst | hrest
      · rw [hfirst]
        exact ⟨List.mem_cons_self,
          get?_takeFields_of_none null _ rest first (Hash.get?_delete_self kwargs first)⟩
      · have hne : (field : RSymbol) ≠ first := by
          intro heq
          rw [RSymbol.text.inj heq] at hrest
          exact (List.nodup_cons.mp hnodup).1 hrest
        rcases ih (kwargs.delete first) (List.nodup_cons.mp hnodup).2 hrest with ⟨hmem, hnone⟩
        rw [Hash.get?_delete_ne kwargs first field hne] at hmem
        exact ⟨List.mem_cons_of_mem _ hmem, hnone⟩

/-- Nothing is lost in the details, whether it is an attribute or not. -/
theorem get?_detailsOf (cls : ErrorClass) (kwargs : Hash RSymbol V) (k : RSymbol) (v : V)
    (hk : kwargs.get? k = some v) :
    (detailsOf (takeFields null kwargs cls.fields).1 (takeFields null kwargs cls.fields).2).get? k
      = some v := by
  by_cases hfield : ∃ field ∈ cls.fields, k = .text field
  · rcases hfield with ⟨field, hfield, rfl⟩
    rcases mem_takeFields null kwargs cls.fields cls.nodup field hfield with ⟨hmem, hnone⟩
    rw [hk, Option.getD_some] at hmem
    -- The attributes are distinct, so their Hash has them all.
    have hentries := Hash.entries_setAll Hash.empty
      ((takeFields null kwargs cls.fields).1.map (fun a => ((a.1 : RSymbol), a.2))) (by
        have hkeys : ((takeFields null kwargs cls.fields).1.map
            (fun a => ((a.1 : RSymbol), a.2))).map Prod.fst
            = ((takeFields null kwargs cls.fields).1.map Prod.fst).map RSymbol.text := by
          rw [List.map_map, List.map_map]
          rfl
        rw [Hash.empty, List.nil_append, hkeys, takeFields_names]
        exact cls.nodup.map (fun _ _ heq => RSymbol.text.inj heq))
    rw [detailsOf, Hash.get?_merge_of_get?_eq_none _ _ _ hnone, Hash.get?_eq_some_iff,
      Hash.ofEntries, hentries]
    exact List.mem_append_right _ (List.mem_map.mpr ⟨_, hmem, rfl⟩)
  · have hrest := get?_takeFields null kwargs cls.fields k
      (fun field hmem heq => hfield ⟨field, hmem, heq⟩)
    exact Hash.get?_merge_of_get? _ _ k v (hrest.trans hk)

/-- What a class makes of its arguments, once they are one message and one Hash of
    keywords. -/
theorem new_of_args (cls : ErrorClass) (first second : Argument V) (kwargs hs : Hash RSymbol V)
    (message : V) (hargs : Coerce.args encodings null first second kwargs = some (message, hs)) :
    cls.new encodings null first second kwargs = some ⟨cls.name, message,
      (takeFields null hs cls.fields).1,
      detailsOf (takeFields null hs cls.fields).1 (takeFields null hs cls.fields).2⟩ := by
  simp only [ErrorClass.new, hargs, bind, Option.bind, Error.details, symbolise_symKeyed, pure]

/-- For each typed class, a message and a Hash of details that has no `message`
    construct the same error, with the same message, attributes and details, in
    all three forms: the Hash after the message, its entries as keywords, and the
    Hash with the message in it, wherever that stands and under a String or a
    Symbol. The details have every entry of the Hash. -/
theorem construction_forms_agree (message : V) (h h' : Hash Key V) (hs : Hash RSymbol V)
    (key : Key) (before after : List (Key × V)) (hsyms : Symbolised encodings h hs)
    (hmessage : hs.get? "message" = none) (hkey : key.toSym? encodings = some "message")
    (hwith : h'.entries = before ++ (key, message) :: after)
    (hwithout : h.entries = before ++ after) :
    ∀ cls ∈ typedErrors, ∃ e, e.className = cls.name ∧ e.message = message ∧
      cls.new encodings null (.value message) (.hash h) Hash.empty = some e ∧
      cls.new encodings null (.value message) (.value null) hs = some e ∧
      cls.new encodings null (.hash h') (.value null) Hash.empty = some e ∧
      ∀ k v, hs.get? k = some v → e.details.get? k = some v := by
  intro cls _
  refine ⟨_, rfl, rfl, new_of_args encodings null cls _ _ _ hs message
      (args_positional encodings null message h hs hsyms),
    new_of_args encodings null cls _ _ _ hs message (args_keywords encodings null message hs),
    new_of_args encodings null cls _ _ _ hs message
      (args_hash encodings null message h h' hs key before after hsyms hwith hwithout hkey
        hmessage), ?_⟩
  intro k v hk
  exact get?_detailsOf null cls hs k v hk

/-- The details of a threshold that was not met, under a String and two
    Symbols. -/
def sampleDetails : List (Key × String) :=
  [(.str (RString.ofString "have_count"), "2"), (.sym "need_count", "3"),
    (.sym "operation", "Cmp20.sign")]

/-- The same with the message among them. -/
def sampleWithMessage : List (Key × String) :=
  [(.str (RString.ofString "have_count"), "2"), (.sym "message", "threshold not met"),
    (.sym "need_count", "3"), (.sym "operation", "Cmp20.sign")]

/-- The details symbolised. -/
def sampleSymbols : Hash RSymbol String :=
  ⟨[("have_count", "2"), ("need_count", "3"), ("operation", "Cmp20.sign")], by decide⟩

/-- A threshold error, from the details of a threshold that was not met. -/
theorem threshold_details_kept :
    ∃ e : TypedError String, e.className = ThresholdError.name ∧
      e.message = "threshold not met" ∧
      ThresholdError.new Encodings.none "" (.value "threshold not met")
        (.hash ⟨sampleDetails, by decide⟩) Hash.empty = some e ∧
      ThresholdError.new Encodings.none "" (.value "threshold not met") (.value "") sampleSymbols
        = some e ∧
      ThresholdError.new Encodings.none "" (.hash ⟨sampleWithMessage, by decide⟩) (.value "")
        Hash.empty = some e ∧
      ∀ k v, sampleSymbols.get? k = some v → e.details.get? k = some v := by
  have htext : (RString.ofString "have_count").toSym? Encodings.none
      = some (.text "have_count") := by
    simp only [RString.toSym?, RString.symText, RString.ofString,
      (decodeUtf8_eq_some_iff _ _).mpr rfl]
  have hsyms : Symbolised Encodings.none ⟨sampleDetails, by decide⟩ sampleSymbols := by
    simp only [Symbolised, sampleDetails, sampleSymbols, List.map_cons, List.map_nil, Key.toSym?,
      htext]
  exact construction_forms_agree Encodings.none "" "threshold not met" ⟨sampleDetails, by decide⟩
    ⟨sampleWithMessage, by decide⟩ sampleSymbols (.sym "message")
    [(.str (RString.ofString "have_count"), "2")]
    [(.sym "need_count", "3"), (.sym "operation", "Cmp20.sign")] hsyms rfl rfl rfl rfl
    ThresholdError (by simp only [typedErrors, List.mem_cons, true_or, or_true])

end Errors

end Confium
