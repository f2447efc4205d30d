import ObjectQuery.Expr.Tagged
import ObjectQuery.Proofs.Expr.Tree
import ObjectQuery.Proofs.Value.Storable

/-!
Expressions that are written and read again. Main statement: an expression is read from what is
written of it exactly if the floats of its literals are finite and it is not nested too deep, and
then is alike but for the names of the objects in literals.
-/

namespace ObjectQuery.Expr

open Json Reading
open Value (tagged canonical_tagged canonical_record_congr)

/-- Expressions of one shape with literals that are alike. -/
inductive Alike : Expr → Expr → Prop where
  | literal {value found : Value} (h : value.Alike found) : Alike (.literal value) (.literal found)
  | parameter (name : String) : Alike (.parameter name) (.parameter name)
  | var (name : String) : Alike (.var name) (.var name)
  | path {qualifier qualifier' : Option Expr} (h : Option.Rel Alike qualifier qualifier')
      (segments : List String) : Alike (.path qualifier segments) (.path qualifier' segments)
  | binary (op : BinaryOperator) {left left' right right' : Expr} (hleft : Alike left left')
      (hright : Alike right right') : Alike (.binary op left right) (.binary op left' right')
  | unary (op : UnaryOperator) {operand operand' : Expr} (h : Alike operand operand') :
      Alike (.unary op operand) (.unary op operand')
  | invoke {receiver receiver' : Option Expr} (hreceiver : Option.Rel Alike receiver receiver')
      (method : String) {args args' : List Expr} (hargs : List.Forall₂ Alike args args')
      (receiverType : Option String) :
      Alike (.invoke receiver method args receiverType)
        (.invoke receiver' method args' receiverType)
  | creator (typeName : String) {args args' : List Expr} (h : List.Forall₂ Alike args args') :
      Alike (.creator typeName args) (.creator typeName args')
  | conditional {branches branches' : List (Expr × Expr)} {otherwise otherwise' : Option Expr}
      (hconditions : List.Forall₂ Alike (branches.map (·.1)) (branches'.map (·.1)))
      (hresults : List.Forall₂ Alike (branches.map (·.2)) (branches'.map (·.2)))
      (hotherwise : Option.Rel Alike otherwise otherwise') :
      Alike (.conditional branches otherwise) (.conditional branches' otherwise')
  | array {elements elements' : List Expr} (h : List.Forall₂ Alike elements elements') :
      Alike (.array elements) (.array elements')

/-- What is written of an expression in a document. -/
def written (e : Expr) : Json := e.toTagged.canonical

/-- An expression with which a document is the same, and is written in the same way. -/
def Restores (e found : Expr) : Prop := e.Alike found ∧ found.written = e.written

theorem Restores.canonical {e found : Expr} (h : e.Restores found) :
    found.toTagged.canonical = e.toTagged.canonical := h.2

/-- A literal, if it is one, that could have been read from a document. -/
def IsStorable : Expr → Prop
  | literal value => value.All Value.IsStorable
  | _ => True

/-- A literal, if it is one, in which no float is an infinity or not-a-number. -/
def FloatsAreFinite : Expr → Prop
  | literal value => value.All Value.FloatIsFinite
  | _ => True

/-! ### What is written -/

theorem allToTagged_eq_map (es : List Expr) : allToTagged es = es.map toTagged := by
  induction es with
  | nil => rfl
  | cons e rest ih => rw [allToTagged, ih, List.map_cons]

theorem branchesToTagged_eq_map (branches : List (Expr × Expr)) :
    branchesToTagged branches =
      branches.map fun branch => .array [branch.1.toTagged, branch.2.toTagged] := by
  induction branches with
  | nil => rfl
  | cons branch rest ih => rw [branchesToTagged, ih, List.map_cons]

theorem optionToTagged_eq (e : Option Expr) :
    optionToTagged e = (e.map toTagged).getD .null := by
  cases e <;> rfl

theorem toTagged_ne_null (e : Expr) : e.toTagged ≠ .null := by
  cases e <;> exact Json.noConfusion

theorem canonical_option {e found : Option Expr} (h : Option.Rel Restores e found) :
    (optionToTagged found).canonical = (optionToTagged e).canonical := by
  cases h with
  | none => rfl
  | some h => exact h.2

theorem canonical_all {es found : List Expr} (h : List.Forall₂ Restores es found) :
    (Json.array (allToTagged found)).canonical = (Json.array (allToTagged es)).canonical := by
  rw [allToTagged_eq_map, allToTagged_eq_map, canonical_array, canonical_array, List.map_map,
    List.map_map]
  exact congrArg Json.array (map_eq_map_of_forall₂ h fun _ _ h => h.2)

theorem canonical_branches {branches found : List (Expr × Expr)}
    (h : List.Forall₂ (fun branch found => branch.1.Restores found.1 ∧ branch.2.Restores found.2)
      branches found) :
    (Json.array (branchesToTagged found)).canonical =
      (Json.array (branchesToTagged branches)).canonical := by
  rw [branchesToTagged_eq_map, branchesToTagged_eq_map, canonical_array, canonical_array,
    List.map_map, List.map_map]
  refine congrArg Json.array (map_eq_map_of_forall₂ h fun branch other h => ?_)
  simp only [Function.comp_apply, canonical_array, List.map_cons, h.1.canonical, h.2.canonical]

/-! ### Reading -/

variable {e : Expr} {option : Option Expr} {es : List Expr} {fuel depth : ℕ} {tag : String}
  {body : Json}

/-- A place in a document is not too deep for an expression, and all its floats can be written. -/
def Fits (e : Expr) (depth : ℕ) : Prop := e.written.depth < depth ∧ e.All FloatsAreFinite

/-- An expression is read, wherever it stands in a document, exactly if it fits there. -/
def Rereads (e : Expr) : Prop :=
  ∀ fuel depth, 0 < depth → (e.written.cut depth).depth < fuel →
    Meets (readTagged Value.ofTagged? fuel (e.written.cut depth)) (e.Fits depth) e.Restores

theorem readTagged_tagged (fuel : ℕ) (tag : String) (body : Json) :
    readTagged Value.ofTagged? (fuel + 1) (tagged tag body) =
      readBody Value.ofTagged? (readTagged Value.ofTagged? fuel) body tag := by
  rw [readTagged, bind_variant?]
  simp only [bind_some]

theorem rereads_of_tagged (htagged : e.toTagged = tagged tag body)
    (hbody : ∀ fuel depth, 0 < depth → (body.canonical.cut depth).depth < fuel →
      Meets (readTagged Value.ofTagged? (fuel + 1) (tagged tag (body.canonical.cut depth)))
        (body.canonical.depth < depth ∧ e.All FloatsAreFinite) e.Restores) :
    e.Rereads := by
  intro fuel depth _ hfuel
  rw [written, htagged] at hfuel ⊢
  rw [Fits, written, htagged]
  exact Meets.tagged (fun _ => rfl) hfuel hbody

theorem meets_option (h : ∀ e ∈ option, e.Rereads) (hdepth : 0 < depth)
    (hfuel : ((optionToTagged option).canonical.cut depth).depth < fuel) :
    Meets (Json.optional (readTagged Value.ofTagged? fuel)
      (some ((optionToTagged option).canonical.cut depth)))
      (∀ e ∈ option, e.Fits depth) (Option.Rel Restores option) := by
  rw [optionToTagged_eq] at hfuel ⊢
  refine Meets.optional (fun e _ => toTagged_ne_null e) fun e he => ?_
  obtain rfl := he
  exact h e rfl fuel depth hdepth hfuel

/-- Reads a list of expressions. -/
def readAll (fuel : ℕ) (json : Json) : Reading (List Expr) := do
  (← json.items?).mapM (readTagged Value.ofTagged? fuel)

theorem meets_readAll (h : ∀ e ∈ es, e.Rereads)
    (hfuel : ((Json.array (allToTagged es)).canonical.cut depth).depth ≤ fuel) :
    Meets (readAll fuel ((Json.array (allToTagged es)).canonical.cut depth))
      (1 < depth ∧ ∀ e ∈ es, e.Fits (depth - 1)) (List.Forall₂ Restores es) := by
  rw [allToTagged_eq_map] at hfuel ⊢
  refine Meets.list fun hlt e he => h e he fuel _ (by omega) ?_
  exact depth_cut_of_item hfuel hlt (List.mem_map_of_mem he)

theorem depth_option_lt_iff (h : 0 < depth) :
    (optionToTagged option).canonical.depth < depth ↔ ∀ e ∈ option, e.written.depth < depth := by
  rw [optionToTagged_eq]
  exact depth_optional_lt_iff h

theorem depth_all_lt_iff :
    (Json.array (allToTagged es)).canonical.depth < depth ↔
      1 < depth ∧ ∀ e ∈ es, e.written.depth < depth - 1 := by
  rw [allToTagged_eq_map, depth_canonical_array_lt_iff, List.forall_mem_map]
  rfl

theorem rereads_literal {value : Value} (h : value.All Value.IsStorable) :
    (literal value).Rereads := by
  refine rereads_of_tagged rfl fun fuel depth hdepth hfuel => ?_
  rw [readTagged_tagged, readBody]
  refine Meets.record (by simp) literalShape hfuel.le fun hlt _ => ?_
  refine Meets.congr (c := value.Fits (depth - 1)) ?_ ?_
  · refine Meets.map (Value.meets_ofTagged? h (by omega)) fun found hfound => ?_
    refine ⟨.literal hfound.1, ?_⟩
    have hwritten : found.toTagged.canonical = value.toTagged.canonical := hfound.2
    exact canonical_record_congr (by simp only [canonicalMembers, hwritten]) _
  · rw [List.forall_mem_singleton, all_iff, children]
    exact and_congr_right fun _ => (and_iff_left (by simp)).symm

theorem rereads_name {make : String → Expr} {name : String}
    (htagged : (make name).toTagged = tagged tag (.string name))
    (hread : ∀ fuel, readTagged Value.ofTagged? (fuel + 1) (tagged tag (.string name)) =
      pure (make name))
    (hchildren : (make name).children = []) (hfinite : (make name).FloatsAreFinite)
    (halike : (make name).Alike (make name)) : (make name).Rereads := by
  refine rereads_of_tagged htagged fun fuel depth hdepth hfuel => ?_
  have hname : Meets (readTagged Value.ofTagged? (fuel + 1) (tagged tag (.string name))) True
      (make name).Restores := by
    rw [hread]
    exact Meets.pure ⟨halike, rfl⟩
  refine hname.congr (iff_of_true trivial ⟨hdepth, hfinite, ?_⟩)
  simp [hchildren]

theorem rereads_path {segments : List String} (h : ∀ e ∈ option, e.Rereads) :
    (path option segments).Rereads := by
  refine rereads_of_tagged rfl fun fuel depth hdepth hfuel => ?_
  rw [readTagged_tagged, readBody]
  refine Meets.record (by simp) pathShape hfuel.le fun hlt hmember => ?_
  simp only [List.forall_mem_cons] at hmember ⊢
  refine Meets.congr (c := (∀ e ∈ option, e.Fits (depth - 1)) ∧ 1 < depth - 1) ?_ ?_
  · refine Meets.bind (meets_option h (by omega) hmember.1) fun found hfound =>
      Meets.map (Meets.lift (offers_strings segments _)) fun texts htexts => ?_
    rw [htexts]
    refine ⟨.path (rel_imp (fun _ _ h => h.1) hfound) segments, ?_⟩
    exact canonical_record_congr (by simp only [canonicalMembers, canonical_option hfound]) _
  · rw [depth_strings_lt_iff, depth_option_lt_iff (by omega), all_iff]
    simp only [Fits, forall₂_and, FloatsAreFinite, children, Option.mem_toList, Option.mem_def]
    tauto

theorem rereads_binary {op : BinaryOperator} {left right : Expr} (hleft : left.Rereads)
    (hright : right.Rereads) : (binary op left right).Rereads := by
  refine rereads_of_tagged rfl fun fuel depth hdepth hfuel => ?_
  rw [readTagged_tagged, readBody]
  refine Meets.record (by simp) binaryShape hfuel.le fun hlt hmember => ?_
  simp only [List.forall_mem_cons] at hmember ⊢
  obtain ⟨-, hmember, hmember', -⟩ := hmember
  refine Meets.congr (c := True ∧ left.Fits (depth - 1) ∧ right.Fits (depth - 1)) ?_ ?_
  · have hop : (plainTag? ((Json.string op.tag).canonical.cut (depth - 1))).bind
        BinaryOperator.ofTag? = some op := by cases op <;> rfl
    refine Meets.bind (Meets.lift (hop ▸ .pure rfl)) fun op' (hop' : op' = op) => ?_
    refine Meets.bind (hleft fuel _ (by omega) hmember) fun left' hleft' =>
      Meets.map (hright fuel _ (by omega) hmember') fun right' hright' => ?_
    rw [hop']
    refine ⟨.binary op hleft'.1 hright'.1, ?_⟩
    exact canonical_record_congr
      (by simp only [canonicalMembers, hleft'.canonical, hright'.canonical]) _
  · have htag : (Json.string op.tag).canonical.depth < depth - 1 := Nat.sub_pos_of_lt hlt
    rw [all_iff, children, List.forall_mem_cons, List.forall_mem_singleton]
    simp only [Fits, written, FloatsAreFinite]
    tauto

theorem rereads_unary {op : UnaryOperator} (h : e.Rereads) : (unary op e).Rereads := by
  refine rereads_of_tagged rfl fun fuel depth hdepth hfuel => ?_
  rw [readTagged_tagged, readBody]
  refine Meets.record (by simp) unaryShape hfuel.le fun hlt hmember => ?_
  simp only [List.forall_mem_cons] at hmember ⊢
  obtain ⟨-, hmember, -⟩ := hmember
  refine Meets.congr (c := True ∧ e.Fits (depth - 1)) ?_ ?_
  · have hop : (plainTag? ((Json.string op.tag).canonical.cut (depth - 1))).bind
        UnaryOperator.ofTag? = some op := by cases op <;> rfl
    refine Meets.bind (Meets.lift (hop ▸ .pure rfl)) fun op' (hop' : op' = op) => ?_
    refine Meets.map (h fuel _ (by omega) hmember) fun found hfound => ?_
    rw [hop']
    refine ⟨.unary op hfound.1, ?_⟩
    exact canonical_record_congr (by simp only [canonicalMembers, hfound.canonical]) _
  · have htag : (Json.string op.tag).canonical.depth < depth - 1 := Nat.sub_pos_of_lt hlt
    rw [all_iff, children, List.forall_mem_singleton]
    simp only [Fits, written, FloatsAreFinite]
    tauto

theorem rereads_invoke {method : String} {receiverType : Option String}
    (hreceiver : ∀ e ∈ option, e.Rereads) (hargs : ∀ e ∈ es, e.Rereads) :
    (invoke option method es receiverType).Rereads := by
  refine rereads_of_tagged rfl fun fuel depth hdepth hfuel => ?_
  rw [readTagged_tagged, readBody]
  refine Meets.record (by simp) invokeShape hfuel.le fun hlt hmember => ?_
  simp only [List.forall_mem_cons] at hmember ⊢
  obtain ⟨hmember, -, hmember', -⟩ := hmember
  refine Meets.congr (c := (∀ e ∈ option, e.Fits (depth - 1)) ∧
    (1 < depth - 1 ∧ ∀ e ∈ es, e.Fits (depth - 1 - 1)) ∧ True) ?_ ?_
  · refine Meets.bind (meets_option hreceiver (by omega) hmember) fun receiver hfound =>
      Meets.bind (meets_readAll hargs hmember'.le) fun args hfound' => ?_
    have htype : Meets (Json.optional (fun json => liftM json.string?)
        (some (((receiverType.map Json.string).getD .null).canonical.cut (depth - 1)))) True
        (· = receiverType) := by
      cases receiverType <;> exact Meets.pure rfl
    refine Meets.map htype fun found htype => ?_
    rw [htype]
    refine ⟨.invoke (rel_imp (fun _ _ h => h.1) hfound) method
      (hfound'.imp fun _ _ h => h.1) receiverType, ?_⟩
    exact canonical_record_congr
      (by simp only [canonicalMembers, canonical_option hfound, canonical_all hfound']) _
  · have hname : (Json.string method).canonical.depth < depth - 1 := Nat.sub_pos_of_lt hlt
    have htype : ((receiverType.map Json.string).getD .null).canonical.depth < depth - 1 := by
      cases receiverType <;> exact Nat.sub_pos_of_lt hlt
    rw [depth_option_lt_iff (by omega), depth_all_lt_iff, all_iff, children,
      List.forall_mem_append]
    simp only [Fits, forall₂_and, FloatsAreFinite, Option.mem_toList, Option.mem_def]
    tauto

theorem rereads_creator {typeName : String} (h : ∀ e ∈ es, e.Rereads) :
    (creator typeName es).Rereads := by
  refine rereads_of_tagged rfl fun fuel depth hdepth hfuel => ?_
  rw [readTagged_tagged, readBody]
  refine Meets.record (by simp) creatorShape hfuel.le fun hlt hmember => ?_
  simp only [List.forall_mem_cons] at hmember ⊢
  obtain ⟨-, hmember, -⟩ := hmember
  refine Meets.congr (c := 1 < depth - 1 ∧ ∀ e ∈ es, e.Fits (depth - 1 - 1)) ?_ ?_
  · refine Meets.map (meets_readAll h hmember.le) fun args hfound => ?_
    refine ⟨.creator typeName (hfound.imp fun _ _ h => h.1), ?_⟩
    exact canonical_record_congr (by simp only [canonicalMembers, canonical_all hfound]) _
  · have hname : (Json.string typeName).canonical.depth < depth - 1 := Nat.sub_pos_of_lt hlt
    rw [depth_all_lt_iff, all_iff, children]
    simp only [Fits, forall₂_and, FloatsAreFinite]
    tauto

theorem rereads_array (h : ∀ e ∈ es, e.Rereads) : (array es).Rereads := by
  refine rereads_of_tagged rfl fun fuel depth hdepth hfuel => ?_
  rw [readTagged_tagged, readBody]
  refine Meets.congr (c := 1 < depth ∧ ∀ e ∈ es, e.Fits (depth - 1)) ?_ ?_
  · refine Meets.map (meets_readAll h hfuel.le) fun elements hfound => ?_
    refine ⟨.array (hfound.imp fun _ _ h => h.1), ?_⟩
    rw [written, written, toTagged, toTagged, canonical_tagged, canonical_tagged,
      canonical_all hfound]
  · rw [depth_all_lt_iff, all_iff, children]
    simp only [Fits, forall₂_and, FloatsAreFinite]
    tauto

/-- Reads the condition and the result of a branch. -/
def readBranch (fuel : ℕ) : Json → Reading (Expr × Expr)
  | .array [condition, result] =>
    return (← readTagged Value.ofTagged? fuel condition, ← readTagged Value.ofTagged? fuel result)
  | _ => failure

theorem meets_branches {branches : List (Expr × Expr)}
    (h : ∀ branch ∈ branches, ∀ e ∈ [branch.1, branch.2], e.Rereads)
    (hfuel : ((Json.array (branchesToTagged branches)).canonical.cut depth).depth ≤ fuel) :
    Meets
      (do
        (← ((Json.array (branchesToTagged branches)).canonical.cut depth).items?).mapM
          (readBranch fuel))
      (1 < depth ∧ ∀ branch ∈ branches,
        1 < depth - 1 ∧ branch.1.Fits (depth - 1 - 1) ∧ branch.2.Fits (depth - 1 - 1))
      (List.Forall₂ (fun branch found => branch.1.Restores found.1 ∧ branch.2.Restores found.2)
        branches) := by
  rw [branchesToTagged_eq_map] at hfuel ⊢
  refine Meets.list fun hlt branch hbranch => ?_
  have hfuel' := depth_cut_of_item hfuel hlt (List.mem_map_of_mem hbranch)
  refine Meets.pair (m := readBranch fuel) (c := (Fits · (depth - 1 - 1))) (r := Restores)
    toTagged (fun _ _ => rfl) rfl fun hlt' e he => ?_
  refine h branch hbranch e he fuel _ (by omega) ?_
  exact depth_cut_of_item hfuel'.le hlt' (List.mem_map_of_mem (f := toTagged) he)

theorem depth_branches_lt_iff {branches : List (Expr × Expr)} :
    (Json.array (branchesToTagged branches)).canonical.depth < depth ↔
      1 < depth ∧ ∀ branch ∈ branches, 1 < depth - 1 ∧
        branch.1.written.depth < depth - 1 - 1 ∧ branch.2.written.depth < depth - 1 - 1 := by
  rw [branchesToTagged_eq_map, depth_canonical_array_lt_iff, List.forall_mem_map]
  refine and_congr_right fun _ => forall₂_congr fun branch _ => ?_
  rw [depth_canonical_array_lt_iff, List.forall_mem_cons, List.forall_mem_singleton]
  rfl

theorem rereads_conditional {branches : List (Expr × Expr)}
    (h : ∀ branch ∈ branches, ∀ e ∈ [branch.1, branch.2], e.Rereads)
    (hotherwise : ∀ e ∈ option, e.Rereads) : (conditional branches option).Rereads := by
  refine rereads_of_tagged rfl fun fuel depth hdepth hfuel => ?_
  rw [readTagged_tagged, readBody]
  refine Meets.record (by simp) conditionalShape hfuel.le fun hlt hmember => ?_
  simp only [List.forall_mem_cons] at hmember ⊢
  obtain ⟨hmember, hmember', -⟩ := hmember
  refine Meets.congr (c := (1 < depth - 1 ∧ ∀ branch ∈ branches, 1 < depth - 1 - 1 ∧
    branch.1.Fits (depth - 1 - 1 - 1) ∧ branch.2.Fits (depth - 1 - 1 - 1)) ∧
      ∀ e ∈ option, e.Fits (depth - 1)) ?_ ?_
  · have hread := Meets.bind (meets_branches h hmember.le) fun found hfound =>
      Meets.map (f := conditional found) (q := (conditional branches option).Restores)
        (meets_option hotherwise (by omega) hmember') fun otherwise hfound' => by
        refine ⟨.conditional ?_ ?_ (rel_imp (fun _ _ h => h.1) hfound'), ?_⟩
        · rw [List.forall₂_map_left_iff, List.forall₂_map_right_iff]
          exact hfound.imp fun _ _ h => h.1.1
        · rw [List.forall₂_map_left_iff, List.forall₂_map_right_iff]
          exact hfound.imp fun _ _ h => h.2.1
        · exact canonical_record_congr
            (by simp only [canonicalMembers, canonical_branches hfound, canonical_option hfound']) _
    rw [bind_assoc] at hread
    exact hread
  · rw [depth_branches_lt_iff, depth_option_lt_iff (by omega), all_iff, children,
      List.forall_mem_append, List.forall_mem_flatMap]
    simp only [Fits, forall₂_and, FloatsAreFinite, Option.mem_toList, Option.mem_def,
      List.forall_mem_cons]
    tauto

/-- A storable expression is read from what is written of it exactly if this fits in its place. -/
theorem rereads_of_isStorable (h : e.All IsStorable) : e.Rereads := by
  induction h with
  | @node e hself hbelow ih =>
    cases e with
    | literal value => exact rereads_literal hself
    | parameter name => exact rereads_name rfl (fun _ => rfl) rfl trivial (.parameter name)
    | var name => exact rereads_name rfl (fun _ => rfl) rfl trivial (.var name)
    | path qualifier segments => exact rereads_path fun e he => ih e (Option.mem_toList.mpr he)
    | binary op left right =>
      exact rereads_binary (ih left (by simp [children])) (ih right (by simp [children]))
    | unary op operand => exact rereads_unary (ih operand (by simp [children]))
    | invoke receiver method args receiverType =>
      exact rereads_invoke (fun e he => ih e (List.mem_append_left _ (Option.mem_toList.mpr he)))
        fun e he => ih e (List.mem_append_right _ he)
    | creator typeName args => exact rereads_creator ih
    | conditional branches otherwise =>
      refine rereads_conditional (fun branch hbranch e he => ih e ?_)
        fun e he => ih e (List.mem_append_right _ (Option.mem_toList.mpr he))
      exact List.mem_append_left _ (List.mem_flatMap.mpr ⟨branch, hbranch, he⟩)
    | array elements => exact rereads_array ih

theorem meets_ofTagged? (h : e.All IsStorable) (hdepth : 0 < depth) :
    Meets (ofTagged? (e.toTagged.canonical.cut depth)) (e.Fits depth) e.Restores :=
  rereads_of_isStorable h _ _ hdepth (Nat.lt_succ_self _)

/-! ### What is read -/

theorem yields_readAll {fuel : ℕ} {json : Json}
    (h : ∀ json, json.NumbersInRange →
      Yields (readTagged Value.ofTagged? fuel json) (All IsStorable))
    (hjson : json.NumbersInRange) : Yields (readAll fuel json) fun es =>
      ∀ e ∈ es, e.All IsStorable :=
  Yields.bind (Yields.lift fun _ => Value.numbersInRange_of_items? hjson) fun _ hitems =>
    Yields.mapM fun item hitem => h item (hitems item hitem)

theorem yields_readBranch {fuel : ℕ} {branch : Json}
    (h : ∀ json, json.NumbersInRange →
      Yields (readTagged Value.ofTagged? fuel json) (All IsStorable))
    (hbranch : branch.NumbersInRange) : Yields (readBranch fuel branch)
      fun found => found.1.All IsStorable ∧ found.2.All IsStorable := by
  unfold readBranch
  split
  · have hitems := (all_array.mp hbranch).2
    rw [List.forall_mem_cons, List.forall_mem_singleton] at hitems
    exact Yields.bind (h _ hitems.1) fun condition hcondition => Yields.bind (h _ hitems.2)
      fun result hresult => Yields.pure ⟨hcondition, hresult⟩
  · exact Yields.failure

theorem yields_readTagged (fuel : ℕ) {json : Json} (h : json.NumbersInRange) :
    Yields (readTagged Value.ofTagged? fuel json) (All IsStorable) := by
  induction fuel generalizing json with
  | zero => exact Yields.failure
  | succ fuel ih =>
    have hread : ∀ json, json.NumbersInRange →
      Yields (readTagged Value.ofTagged? fuel json) (All IsStorable) := fun _ => ih
    rw [readTagged]
    refine Yields.bind (Yields.lift fun _ => Value.numbersInRange_of_variant? h) ?_
    rintro ⟨tag, body⟩ hvariant
    refine Yields.bind (Yields.lift hvariant) fun body hbody => ?_
    have hrecord : ∀ shape, Yields (liftM (body.record? shape))
        fun found => ∀ field, some field ∈ found → field.NumbersInRange :=
      fun shape => Yields.lift fun _ => Value.numbersInRange_of_record? hbody
    -- One case for each tag, in the order of the reader, and one for all other texts.
    unfold readBody
    split
    case h_1 =>
      refine Yields.bind (hrecord literalShape) fun found hfound => ?_
      split
      · refine Yields.bind (Value.yields_ofTagged? (hfound _ (by simp))) fun value hvalue => ?_
        exact Yields.pure ⟨hvalue, by simp [children]⟩
      · exact Yields.failure
    case h_2 | h_3 =>
      exact Yields.bind Yields.any fun name _ => Yields.pure ⟨trivial, by simp [children]⟩
    case h_4 =>
      refine Yields.bind (hrecord pathShape) fun found hfound => ?_
      split
      · refine Yields.bind (Yields.optional fun json hjson => ih (hfound _ (by simp_all))) ?_
        refine fun qualifier hqualifier => Yields.bind Yields.any fun segments _ => Yields.pure ?_
        exact ⟨trivial, by simpa [children] using hqualifier⟩
      · exact Yields.failure
    case h_5 =>
      refine Yields.bind (hrecord binaryShape) fun found hfound => ?_
      split
      · refine Yields.bind Yields.any fun op _ => ?_
        refine Yields.bind (ih (hfound _ (by simp))) fun left hleft =>
          Yields.bind (ih (hfound _ (by simp))) fun right hright => Yields.pure ⟨trivial, ?_⟩
        rw [children, List.forall_mem_cons, List.forall_mem_singleton]
        exact ⟨hleft, hright⟩
      · exact Yields.failure
    case h_6 =>
      refine Yields.bind (hrecord unaryShape) fun found hfound => ?_
      split
      · refine Yields.bind Yields.any fun op _ => ?_
        refine Yields.bind (ih (hfound _ (by simp))) fun operand hoperand =>
          Yields.pure ⟨trivial, ?_⟩
        rw [children, List.forall_mem_singleton]
        exact hoperand
      · exact Yields.failure
    case h_7 =>
      refine Yields.bind (hrecord invokeShape) fun found hfound => ?_
      split
      · refine Yields.bind (Yields.optional fun json hjson => ih (hfound _ (by simp_all))) ?_
        intro receiver hreceiver
        refine Yields.bind (p := fun args => ∀ e ∈ args, All IsStorable e)
          (Yields.withDefault (by simp) fun json hjson =>
            yields_readAll hread (hfound json (by simp_all))) fun args hargs => ?_
        refine Yields.bind Yields.any fun _ _ => Yields.bind Yields.any fun _ _ => Yields.pure ?_
        refine ⟨trivial, ?_⟩
        rw [children, List.forall_mem_append]
        exact ⟨by simpa using hreceiver, hargs⟩
      · exact Yields.failure
    case h_8 =>
      refine Yields.bind (hrecord creatorShape) fun found hfound => ?_
      split
      · refine Yields.bind Yields.any fun typeName _ => ?_
        refine Yields.bind (yields_readAll hread (hfound _ (by simp))) fun args hargs => ?_
        exact Yields.pure ⟨trivial, hargs⟩
      · exact Yields.failure
    case h_9 =>
      refine Yields.bind (hrecord conditionalShape) fun found hfound => ?_
      split
      · refine Yields.bind (Yields.lift fun _ =>
          Value.numbersInRange_of_items? (hfound _ (by simp))) fun items hitems => ?_
        refine Yields.bind (Yields.mapM (f := readBranch fuel) fun item hitem =>
          yields_readBranch hread (hitems item hitem)) fun branches hbranches => ?_
        refine Yields.bind (Yields.optional fun json hjson => ih (hfound _ (by simp_all))) ?_
        refine fun otherwise hotherwise => Yields.pure ⟨trivial, ?_⟩
        rw [children, List.forall_mem_append, List.forall_mem_flatMap]
        refine ⟨fun branch hbranch => ?_, by simpa using hotherwise⟩
        rw [List.forall_mem_cons, List.forall_mem_singleton]
        exact hbranches branch hbranch
      · exact Yields.failure
    case h_10 =>
      refine Yields.bind (yields_readAll hread hbody) fun elements helements => ?_
      exact Yields.pure ⟨trivial, helements⟩
    case h_11 => exact Yields.failure

theorem yields_ofTagged? {json : Json} (h : json.NumbersInRange) :
    Yields (ofTagged? json) (All IsStorable) :=
  yields_readTagged _ h

/-! ### What is written -/

theorem legible_texts {p : JsonNumber → Prop} (texts : List String) :
    (Json.array (texts.map Json.string)).All (Legible p) :=
  legible_array.mpr (List.forall_mem_map.mpr fun _ _ => legible_of_leaf trivial rfl)

theorem legible_toTagged (h : e.All IsStorable) :
    e.toTagged.All (Legible JsonNumber.InRange) := by
  have htagged : ∀ {tag : String} {members : List (String × Json)},
      (∀ member ∈ members, member.2.All (Legible JsonNumber.InRange)) →
        (tagged tag (.object members)).All (Legible JsonNumber.InRange) := fun hmembers =>
    legible_object.mpr (by simpa using legible_object.mpr hmembers)
  have hname : ∀ name, (Json.string name).All (Legible JsonNumber.InRange) := fun _ =>
    legible_of_leaf trivial rfl
  have hall : ∀ {es : List Expr}, (∀ e ∈ es, e.toTagged.All (Legible JsonNumber.InRange)) →
      (Json.array (allToTagged es)).All (Legible JsonNumber.InRange) := fun h => by
    rwa [allToTagged_eq_map, legible_array, List.forall_mem_map]
  have hoption : ∀ {option : Option Expr},
      (∀ e ∈ option, e.toTagged.All (Legible JsonNumber.InRange)) →
        (optionToTagged option).All (Legible JsonNumber.InRange) := fun h => by
    rw [optionToTagged_eq]
    exact legible_optional h
  induction h with
  | @node e hself _ ih =>
    cases e with
    | literal value => exact htagged (by simpa using Value.legible_toTagged hself)
    | parameter name | var name => exact legible_object.mpr (by simpa using hname name)
    | path qualifier segments =>
      refine htagged ?_
      simp only [List.forall_mem_cons]
      exact ⟨hoption fun e he => ih e (Option.mem_toList.mpr he), legible_texts segments, by simp⟩
    | binary op left right =>
      refine htagged ?_
      simp only [List.forall_mem_cons]
      exact ⟨hname _, ih left (by simp [children]), ih right (by simp [children]), by simp⟩
    | unary op operand =>
      refine htagged ?_
      simp only [List.forall_mem_cons]
      exact ⟨hname _, ih operand (by simp [children]), by simp⟩
    | invoke receiver method args receiverType =>
      refine htagged ?_
      simp only [List.forall_mem_cons]
      exact ⟨hoption fun e he => ih e (List.mem_append_left _ (Option.mem_toList.mpr he)), hname _,
        hall fun e he => ih e (List.mem_append_right _ he), legible_optional fun _ _ => hname _,
        by simp⟩
    | creator typeName args =>
      refine htagged ?_
      simp only [List.forall_mem_cons]
      exact ⟨hname _, hall ih, by simp⟩
    | conditional branches otherwise =>
      refine htagged ?_
      rw [branchesToTagged_eq_map]
      simp only [List.forall_mem_cons, legible_array, List.forall_mem_map]
      refine ⟨fun branch hbranch => ?_, ?_, by simp⟩
      · have hbelow : ∀ e ∈ [branch.1, branch.2], e.toTagged.All (Legible JsonNumber.InRange) :=
          fun e he => ih e (List.mem_append_left _ (List.mem_flatMap.mpr ⟨branch, hbranch, he⟩))
        simpa using hbelow
      · exact hoption fun e he => ih e (List.mem_append_right _ (Option.mem_toList.mpr he))
    | array elements =>
      have helements : (Json.array (allToTagged elements)).All (Legible JsonNumber.InRange) :=
        hall ih
      exact legible_object.mpr (by simpa using helements)

end ObjectQuery.Expr
