import EdgeBase.Functions.Routing
import EdgeBase.Lib.Audit
import EdgeBase.Lib.PathText
import Mathlib.Algebra.Order.BigOperators.Group.List

/-!
# Which function a request runs

A request goes to the first route by score that serves its method and matches its path.  A static
route scores at least as much as any other that matches, and as much as another exactly when that
one has no bracketed segment: a `:param` counts as static.

* `specificity_le`, `specificity_eq_iff` : the scores of the routes that match a path.
* `matchRoute_ranked` : the route that is taken.
* `routed_iff` : the one is the other.
* `decoded_twice` : a parameter with a percent sign.
-/

namespace EdgeBase.Functions

open List Segment Globs CompiledRoute

/-! ### Segments and scores -/

def Segment.isBracket : Segment → Bool
  | .catchAll _ | .param _ => true
  | .colon _ | .static _ => false

def CompiledRoute.hasBrackets (route : CompiledRoute) : Bool :=
  (segments route.path).any isBracket

/-- A route serves the method of a request and matches its path. -/
def answers (path method : Text) (route : CompiledRoute) : Bool :=
  route.serves method && (route.exec path).isSome

def staticScore (path : Text) : ℤ := if path = [] then 0 else (path.count '/' + 1) * 110

theorem parseSegment_eq_static {segment text : Text} (h : parseSegment segment = .static text) :
    text = segment := by
  unfold parseSegment at h
  split at h
  · split at h <;> cases h
    rfl
  · split at h <;> cases h
    rfl
  · split_ifs at h
    cases h
    rfl
  · cases h
    rfl

theorem length_segments (path : Text) : (segments path).length = path.count '/' + 1 := by
  rw [segments, length_map, PathText.length_splitOn]

theorem notMem_of_static {path text : Text} (h : .static text ∈ segments path) : '/' ∉ text := by
  obtain ⟨segment, hsegment, hparse⟩ := mem_map.1 h
  rw [parseSegment_eq_static hparse]
  exact PathText.notMem_of_mem_splitOn hsegment

theorem litCount_intersperse (as : List (Globs.Atom Char)) :
    litCount '/' (as.intersperse (.lit ['/'])) = litCount '/' as + (as.length - 1) := by
  induction as with
  | nil => rfl
  | cons a as ih =>
    cases as with
    | nil => rfl
    | cons b as =>
      rw [intersperse_cons_cons]
      simp only [litCount, map_cons, sum_cons, length_cons] at ih ⊢
      rw [ih]
      simp
      omega

theorem litCount_pattern {path : Text} (hempty : path ≠ []) (hroot : path ≠ ['/']) :
    litCount '/' (compileRoutePattern path).pattern = path.count '/' := by
  have hpattern : (compileRoutePattern path).pattern =
      ((segments path).map atom).intersperse (.lit ['/']) := by
    rw [compileRoutePattern, if_neg (by simp [hempty, hroot])]
  have hzero : litCount '/' ((segments path).map atom) = 0 := by
    rw [litCount, sum_eq_zero]
    intro n hn
    obtain ⟨a, ha, rfl⟩ := mem_map.1 hn
    obtain ⟨segment, hsegment, rfl⟩ := mem_map.1 ha
    cases segment with
    | catchAll _ | param _ | colon _ => rfl
    | static text => exact count_eq_zero.2 (notMem_of_static hsegment)
  rw [hpattern, litCount_intersperse, hzero, length_map, length_segments]
  omega

theorem bonus_le (segment : Segment) :
    segment.bonus ≤ 10 ∧ (segment.bonus = 10 ↔ segment.isBracket = false) := by
  cases segment <;> simp [bonus, isBracket]

theorem sum_bonus (segs : List Segment) : (segs.map bonus).sum ≤ segs.length * 10 ∧
      ((segs.map bonus).sum = segs.length * 10 ↔ segs.any isBracket = false) := by
  induction segs with
  | nil => simp
  | cons segment segs ih =>
    obtain ⟨hle, heq⟩ := ih
    obtain ⟨hle', heq'⟩ := bonus_le segment
    rw [map_cons, sum_cons, length_cons, any_cons, Bool.or_eq_false_iff, ← heq,
      ← heq']
    push_cast
    exact ⟨by omega, by omega⟩

theorem exec_root {route : CompiledRoute} {path : Text}
    (hroute : route.path = [] ∨ route.path = ['/']) (hexec : (route.exec path).isSome) :
    path = [] := by
  rw [CompiledRoute.exec, CompiledRoute.pattern, compileRoutePattern, if_pos hroute, Globs.exec]
    at hexec
  split_ifs at hexec with hpath
  · exact hpath
  · cases hexec

theorem eq_lit_nil_of_fills {as : List (Globs.Atom Char)} {captures : List Text}
    (h : Globs.Fills as captures []) : ∀ a ∈ as, a = .lit [] := by
  generalize hs : ([] : Text) = s at h
  induction h with
  | nil => simp
  | lit text _ ih =>
    obtain ⟨rfl, rfl⟩ := append_eq_nil_iff.1 hs.symm
    exact forall_mem_cons.2 ⟨rfl, ih rfl⟩
  | run hne _ _ _ => exact absurd (append_eq_nil_iff.1 hs.symm).1 hne

theorem exec_empty {route : CompiledRoute} (hexec : (route.exec []).isSome) :
    route.path = [] ∨ route.path = ['/'] := by
  by_contra hroute
  have hpattern : route.pattern =
      ((segments route.path).map atom).intersperse (.lit ['/']) := by
    rw [CompiledRoute.pattern, compileRoutePattern, if_neg hroute]
  obtain ⟨captures, hfills⟩ := isSome_exec_iff.1 hexec
  have hlit := eq_lit_nil_of_fills hfills
  rw [hpattern, segments] at hlit
  obtain ⟨segment, rest, hsplit⟩ :=
    exists_cons_of_ne_nil (splitOn_ne_nil '/' route.path)
  cases rest with
  | cons next rest =>
    rw [hsplit, map_cons, map_cons, map_cons, map_cons,
      intersperse_cons_cons] at hlit
    have hseparator := hlit (.lit ['/']) (mem_cons_of_mem _ mem_cons_self)
    cases hseparator
  | nil =>
    have hpath : route.path = segment := by
      have hjoin : List.intercalate ['/'] (route.path.splitOn '/') = route.path :=
        intercalate_splitOn '/'
      rw [← hjoin, hsplit]
      simp
    rw [hsplit] at hlit
    have hsegment := hlit (parseSegment segment).atom mem_cons_self
    cases hparse : parseSegment segment with
    | catchAll _ | param _ | colon _ => rw [hparse] at hsegment; cases hsegment
    | static text =>
      rw [hparse, atom, parseSegment_eq_static hparse, ← hpath] at hsegment
      exact hroute (.inl (Globs.Atom.lit.inj hsegment))

theorem mem_intersperse {α : Type} {l : List α} {sep a : α} (h : a ∈ l.intersperse sep) :
    a = sep ∨ a ∈ l := by
  induction l with
  | nil => cases h
  | cons x l ih =>
    cases l with
    | nil => exact .inr h
    | cons y l =>
      rw [intersperse_cons_cons] at h
      rcases mem_cons.1 h with rfl | h
      · exact .inr mem_cons_self
      rcases mem_cons.1 h with rfl | h
      · exact .inl rfl
      · exact (ih h).imp_right (mem_cons_of_mem _)

theorem run_of_not_bracket {path : Text} (hbrackets : (segments path).any isBracket = false)
    {cls : Char → Bool} (h : Globs.Atom.run cls ∈ (compileRoutePattern path).pattern) :
    ¬ cls '/' := by
  rw [compileRoutePattern] at h
  split_ifs at h
  · cases h
  rcases mem_intersperse h with h | h
  · cases h
  obtain ⟨segment, hsegment, hatom⟩ := mem_map.1 h
  have hplain : segment.isBracket = false := by
    simpa using any_eq_false.1 hbrackets segment hsegment
  cases segment with
  | catchAll _ | param _ => cases hplain
  | colon _ =>
    cases hatom
    simp
  | static _ => cases hatom

/-- The score of a route that matches a path, beside that of a static one: it is as high only if the
route has no brackets. -/
theorem specificity_of_exec {route : CompiledRoute} {path : Text}
    (hexec : (route.exec path).isSome) : route.specificity ≤ staticScore path ∧
      (route.specificity = staticScore path ↔ route.hasBrackets = false) := by
  by_cases hroute : route.path = [] ∨ route.path = ['/']
  · obtain rfl := exec_root hroute hexec
    have hscore : route.specificity = staticScore [] := by
      rw [specificity, calculateSpecificity, if_pos hroute, staticScore, if_pos rfl]
    have hplain : route.hasBrackets = false := by
      rw [hasBrackets]
      rcases hroute with hroute | hroute <;> rw [hroute] <;> decide
    exact ⟨hscore.le, iff_of_true hscore hplain⟩
  · have hpath : path ≠ [] := by
      rintro rfl
      exact hroute (exec_empty hexec)
    obtain ⟨hempty, hroot⟩ := not_or.1 hroute
    obtain ⟨captures, hfills⟩ := isSome_exec_iff.1 hexec
    have hcount : litCount '/' route.pattern = route.path.count '/' :=
      litCount_pattern hempty hroot
    have hle : route.path.count '/' ≤ path.count '/' := hcount ▸ litCount_le '/' hfills
    obtain ⟨hsum, hplain⟩ := sum_bonus (segments route.path)
    rw [specificity, calculateSpecificity, if_neg hroute, staticScore, if_neg hpath,
      hasBrackets, ← hplain]
    rw [length_segments] at hsum hplain ⊢
    push_cast at hsum hplain ⊢
    refine ⟨by omega, by omega, fun heq => ?_⟩
    -- without brackets each segment takes one piece
    have hsame : route.path.count '/' = path.count '/' :=
      hcount ▸ litCount_eq (fun cls hcls => run_of_not_bracket (hplain.1 heq) hcls) hfills
    omega

theorem map_intersperse {α β : Type} (f : α → β) (l : List α) (sep : α) :
    (l.intersperse sep).map f = (l.map f).intersperse (f sep) := by
  induction l with
  | nil => rfl
  | cons x l ih =>
    cases l with
    | nil => rfl
    | cons y l =>
      rw [intersperse_cons_cons, map_cons, map_cons, ih]
      rfl

theorem segments_of_static {route : CompiledRoute} (hstatic : route.isDynamic = false)
    (hroute : ¬ (route.path = [] ∨ route.path = ['/'])) :
    segments route.path = (route.path.splitOn '/').map Segment.static := by
  rw [CompiledRoute.isDynamic, compileRoutePattern, if_neg hroute] at hstatic
  refine map_congr_left fun segment hsegment => ?_
  have hname := any_eq_false.1 hstatic (parseSegment segment)
    (mem_map_of_mem hsegment)
  cases hparse : parseSegment segment with
  | catchAll _ | param _ | colon _ => rw [hparse] at hname; exact absurd rfl hname
  | static text => rw [parseSegment_eq_static hparse]

theorem exec_static {route : CompiledRoute} (hstatic : route.isDynamic = false)
    (hroot : route.path ≠ ['/']) :
    route.exec route.path = some [] ∧ route.paramNames = [] ∧ route.hasBrackets = false := by
  by_cases hroute : route.path = [] ∨ route.path = ['/']
  · have hempty := hroute.resolve_right hroot
    rw [CompiledRoute.exec, CompiledRoute.pattern, CompiledRoute.paramNames,
      hasBrackets, hempty]
    exact ⟨rfl, rfl, by decide⟩
  · have hsegments := segments_of_static hstatic hroute
    have hpattern : route.pattern = ((route.path.splitOn '/').intersperse ['/']).map .lit := by
      rw [CompiledRoute.pattern, compileRoutePattern, if_neg hroute, hsegments,
        map_intersperse]
      dsimp only
      rw [map_map]
      rfl
    have hfills : Globs.Fills route.pattern [] route.path := by
      rw [hpattern]
      exact fills_lits.2 ⟨rfl, (intercalate_splitOn '/').symm⟩
    refine ⟨?_, ?_, ?_⟩
    · obtain ⟨captures, hexec⟩ := Option.isSome_iff_exists.1 (isSome_exec hfills)
      have hcaptures := fills_of_exec hexec
      rw [hpattern] at hcaptures
      rw [CompiledRoute.exec, hexec, (fills_lits.1 hcaptures).1]
    · rw [CompiledRoute.paramNames, compileRoutePattern, if_neg hroute, hsegments]
      exact filterMap_eq_nil_iff.2 fun segment h => by
        obtain ⟨text, -, rfl⟩ := mem_map.1 h
        rfl
    · rw [hasBrackets, hsegments, any_map]
      exact any_eq_false.2 fun _ _ => by simp [isBracket]

/-! ### The route that is taken -/

/-- The values of the parameters, if each is the piece that was captured. -/
def bindParams (params : Params) (names captures : List Text) : Params :=
  (names.zip captures).foldl (fun params b => params.assign b.1 b.2) params

def decoded (capture : Text) : Text := (Percent.decode capture).getD []

theorem extractParams_eq (params : Params) (names captures : List Text) :
    extractParams params names captures =
      if ∀ b ∈ names.zip captures, (Percent.decode b.2).isSome then
        .ok (bindParams params names (captures.map decoded))
      else .error .uriError := by
  induction names generalizing params captures with
  | nil => simp [extractParams, bindParams]
  | cons name names ih =>
    cases captures with
    | nil => simp [extractParams, bindParams]
    | cons capture captures =>
      rw [extractParams]
      cases hdecode : Percent.decode capture with
      | none => simp [hdecode]
      | some value =>
        have hhead : decoded capture = value := by rw [decoded, hdecode, Option.getD_some]
        simp only [ih, bindParams, map_cons, zip_cons_cons, foldl_cons, hhead]
        refine if_congr ?_ rfl rfl
        rw [forall_mem_cons]
        simp [hdecode]

theorem matchRoute_eq (routes : List CompiledRoute) (path method : Text) :
    matchRoute routes path method =
      match routes.find? (answers path method) with
      | none => .ok none
      | some route =>
        (extractParams [] route.paramNames ((route.exec path).getD [])).map fun params =>
          some ⟨route, params⟩ := by
  induction routes with
  | nil => rfl
  | cons route routes ih =>
    rw [matchRoute, ih]
    cases hserves : route.serves method with
    | false =>
      rw [List.find?_cons_of_neg (by simp [answers, hserves])]
      simp
    | true =>
      cases hexec : route.exec path with
      | none =>
        rw [List.find?_cons_of_neg (by simp [answers, hexec])]
        simp
      | some captures =>
        rw [List.find?_cons_of_pos (by simp [answers, hserves, hexec])]
        simp [hexec]

theorem find?_sortRoutes {routes : List CompiledRoute} {path method : Text}
    {route : CompiledRoute} : (sortRoutes routes).find? (answers path method) = some route ↔
      ∃ pre post, routes = pre ++ route :: post ∧ answers path method route ∧
        (∀ r ∈ pre, answers path method r → r.specificity < route.specificity) ∧
        ∀ r ∈ post, answers path method r → r.specificity ≤ route.specificity := by
  rw [sortRoutes, Ranking.find?_ranked]
  exact Ranking.best_eq_some_iff

def registryRoutes (registry : Registry) : List CompiledRoute :=
  registry.filterMap fun (key, definition) =>
    match definition.trigger with
    | .other => none
    | .http method path =>
      let name := getRegistryName key definition
      some ⟨name, normalizeHttpRoutePath (path.getD name), definition, methodOf method⟩

variable {registry : Registry}

theorem compileRoutes_eq {seenRoutes : List ((Text × Text) × Text)}
    {routes : List CompiledRoute} (h : compileRoutes seenRoutes registry = .ok routes) :
    routes = registryRoutes registry := by
  induction registry generalizing seenRoutes routes with
  | nil =>
    cases h
    rfl
  | cons entry registry ih =>
    obtain ⟨key, ⟨trigger, auth, handler⟩⟩ := entry
    cases trigger with
    | other => exact ih h
    | http method path =>
      rw [compileRoutes] at h
      dsimp only at h
      split_ifs at h
      obtain ⟨rest, hrest, hroutes⟩ := Except.bind_eq_ok.1 h
      cases hroutes
      rw [ih hrest]
      rfl

theorem rebuildCompiledRoutes_eq {compiledRoutes : List CompiledRoute}
    (h : rebuildCompiledRoutes registry = .ok compiledRoutes) :
    compiledRoutes = sortRoutes (registryRoutes registry) := by
  rw [rebuildCompiledRoutes] at h
  cases hroutes : compileRoutes [] registry with
  | error collision => rw [hroutes] at h; cases h
  | ok routes =>
    rw [hroutes] at h
    cases h
    rw [compileRoutes_eq hroutes]

theorem path_ne_root {route : CompiledRoute}
    (h : route ∈ registryRoutes registry) : route.path ≠ ['/'] := by
  obtain ⟨⟨key, ⟨trigger, auth, handler⟩⟩, -, hroute⟩ := mem_filterMap.1 h
  cases trigger with
  | other => cases hroute
  | http method path =>
    cases hroute
    dsimp only [normalizeHttpRoutePath]
    intro hroot
    have hdrop := congrArg List.reverse hroot
    rw [reverse_reverse, reverse_singleton] at hdrop
    -- the first character that is left is no slash
    have hhead := List.head?_dropWhile_not (fun c : Char => decide (c = '/'))
      ((((path.getD (getRegistryName key ⟨.http method path, auth, handler⟩)).dropWhile
        isTrimmed).reverse.dropWhile isTrimmed).reverse.dropWhile (· = '/')).reverse
    rw [hdrop] at hhead
    cases hhead

/-! ### What a request should run -/

/-- A route without parameters whose path is the one of a request and whose method is.  One for
every method counts where there is none for the method. -/
structure IsExact (routes : List CompiledRoute) (path method : Text)
    (route : CompiledRoute) : Prop where
  mem : route ∈ routes
  static : route.isDynamic = false
  path_eq : route.path = path
  serves : route.serves method
  method_eq : route.method = none → ∀ r ∈ routes, r.isDynamic = false → r.path = path →
    r.serves method → r.method = none

/-- What the routing promises of a request, for its path after `/api/functions/` as it was sent
and as the framework decodes it. -/
structure Routed (compiledRoutes : List CompiledRoute) (encoded path method : Text) :
    Prop where
  exact : ∀ route, IsExact compiledRoutes path method route →
    ∃ params, matchRoute compiledRoutes path method = .ok (some ⟨route, params⟩)
  auth : inspected compiledRoutes (functionsPrefix ++ encoded) method =
    (functionsRoute compiledRoutes path method).map Dispatch.definition?
  /-- The value of each parameter is the piece of the decoded path. -/
  params : ∀ route captures, compiledRoutes.find? (answers path method) = some route →
    route.exec path = some captures →
    matchRoute compiledRoutes path method =
      .ok (some ⟨route, bindParams [] route.paramNames captures⟩)

/-- The condition on the routes, in the order of registration, and the path. -/
structure Distinct (routes : List CompiledRoute) (path method : Text) : Prop where
  /-- Before a static route, only routes with brackets answer. -/
  exact : ∀ route, IsExact routes path method route →
    ∃ pre post, routes = pre ++ route :: post ∧
      ∀ r ∈ pre, answers path method r → r.hasBrackets
  /-- The pieces that the route with the highest score takes can be decoded, and those that are
  the value of a parameter have no percent sign. -/
  params : ∀ pre route post captures, routes = pre ++ route :: post →
    answers path method route → route.exec path = some captures →
    (∀ r ∈ pre, answers path method r → r.specificity < route.specificity) →
    (∀ r ∈ post, answers path method r → r.specificity ≤ route.specificity) →
    (∀ b ∈ route.paramNames.zip captures, (Percent.decode b.2).isSome) ∧
      ∀ b ∈ bindParams [] route.paramNames captures, '%' ∉ b.2

/-! ### The definition that is inspected -/

theorem toUpper_toUpper (c : Char) : c.toUpper.toUpper = c.toUpper := by
  by_cases h : 'a'.val ≤ c.val ∧ c.val ≤ 'z'.val
  · have hval : c.toUpper.val = c.val + ('A'.val - 'a'.val) := by
      delta Char.toUpper
      rw [dif_pos h]
    have hnot : ¬('a'.val ≤ c.toUpper.val ∧ c.toUpper.val ≤ 'z'.val) := by
      rw [hval]
      obtain ⟨hlow, hhigh⟩ := h
      simp only [UInt32.le_iff_toNat_le] at hlow hhigh ⊢
      simp at *
      omega
    exact dif_neg hnot
  · have hc : c.toUpper = c := dif_neg h
    rw [hc, hc]

theorem matchRoute_toUpperCase (routes : List CompiledRoute) (path method : Text) :
    matchRoute routes path (toUpperCase method) = matchRoute routes path method := by
  have htwice : toUpperCase (toUpperCase method) = toUpperCase method := by
    simp [toUpperCase, Function.comp_def, toUpper_toUpper]
  have hserves : ∀ route : CompiledRoute, route.serves (toUpperCase method) = route.serves method :=
    fun route => by rw [CompiledRoute.serves, CompiledRoute.serves, htwice]
  rw [matchRoute_eq, matchRoute_eq]
  have hanswers : answers path (toUpperCase method) = answers path method :=
    funext fun route => by rw [answers, answers, hserves]
  rw [hanswers]

theorem inspected_eq (routes : List CompiledRoute) {encoded path : Text}
    (hdecode : Percent.decode encoded = some path) (method : Text) :
    inspected routes (functionsPrefix ++ encoded) method =
      (functionsRoute routes path method).map Dispatch.definition? := by
  have hhead : functionsPrefix.isPrefixOf (functionsPrefix ++ encoded) = true :=
    isPrefixOf_iff_prefix.2 (prefix_append _ _)
  rw [inspected, functionsRoute, hhead, drop_left]
  by_cases hempty : encoded = []
  · have hpath : path = [] := by
      rw [hempty] at hdecode
      exact (Option.some.inj hdecode).symm
    rw [if_pos hpath]
    simp [hempty]
    rfl
  · have hpath : path ≠ [] := by
      rintro rfl
      exact hempty (Percent.decode_eq_nil_iff.1 hdecode)
    simp only [hempty, hpath, hdecode, if_false, matchRoute_toUpperCase]
    cases matchRoute routes path method with
    | error thrown => rfl
    | ok matched =>
      cases matched with
      | some m => rfl
      | none =>
        cases hexists : routeExistsForPath routes path with
        | true => simp; rfl
        | false => simp; rfl

/-! ### The values of the parameters -/

theorem assign_map (params : Params) (name value : Text) :
    Params.assign (params.map fun b => (b.1, decoded b.2)) name (decoded value) =
      (params.assign name value).map fun b => (b.1, decoded b.2) := by
  unfold Params.assign
  split_ifs
  · rfl
  · induction params with
    | nil => rfl
    | cons b params ih =>
      rw [map_cons, Assoc.set, Assoc.set]
      split_ifs
      · rfl
      · rw [ih, map_cons]

theorem bindParams_decoded (params : Params) (names captures : List Text) :
    bindParams (params.map fun b => (b.1, decoded b.2)) names (captures.map decoded) =
      (bindParams params names captures).map fun b => (b.1, decoded b.2) := by
  induction names generalizing params captures with
  | nil => rfl
  | cons name names ih =>
    cases captures with
    | nil => rfl
    | cons capture captures =>
      have hstep := ih (params.assign name capture) captures
      rw [← assign_map] at hstep
      exact hstep

theorem mem_bindParams {params : Params} {names captures : List Text} {b : Text × Text}
    (h : b ∈ bindParams params names captures) :
    b ∈ params ∨ ∃ c ∈ names.zip captures, c.2 = b.2 := by
  induction names generalizing params captures with
  | nil => exact .inl h
  | cons name names ih =>
    cases captures with
    | nil => exact .inl h
    | cons capture captures =>
      have hrest : b ∈ bindParams (params.assign name capture) names captures := h
      rcases ih hrest with h | ⟨c, hc, hcb⟩
      · unfold Params.assign at h
        split_ifs at h
        · exact .inl h
        · rcases Assoc.mem_set h with rfl | h
          · exact .inr ⟨_, mem_cons_self, rfl⟩
          · exact .inl h
      · exact .inr ⟨c, mem_cons_of_mem _ hc, hcb⟩

/-- The values are the captured pieces if and only if every piece can be decoded and no value has a
percent sign. -/
theorem extractParams_eq_bindParams_iff (names captures : List Text) :
    extractParams [] names captures = .ok (bindParams [] names captures) ↔
      (∀ b ∈ names.zip captures, (Percent.decode b.2).isSome) ∧
        ∀ b ∈ bindParams [] names captures, '%' ∉ b.2 := by
  rw [extractParams_eq]
  have hself : ∀ {capture : Text}, (Percent.decode capture).isSome →
      (decoded capture = capture ↔ '%' ∉ capture) := by
    intro capture hsome
    obtain ⟨value, hvalue⟩ := Option.isSome_iff_exists.1 hsome
    rw [← Percent.decode_eq_self_iff, decoded, hvalue, Option.getD_some, Option.some.injEq]
  split_ifs with hall
  · have hbound := bindParams_decoded [] names captures
    rw [map_nil] at hbound
    rw [hbound, Except.ok.injEq]
    have hdecodes : ∀ b ∈ bindParams [] names captures, (Percent.decode b.2).isSome := by
      intro b hb
      rcases mem_bindParams hb with hb | ⟨c, hc, hcb⟩
      · cases hb
      · exact hcb ▸ hall c hc
    constructor
    · intro hmap
      refine ⟨hall, fun b hb => (hself (hdecodes b hb)).1 ?_⟩
      have hfix := map_inj_left.1 (hmap.trans (map_id _).symm) b hb
      exact congrArg Prod.snd hfix
    · rintro ⟨-, hpercent⟩
      refine (map_inj_left.2 fun b hb => ?_).trans (map_id _)
      rw [(hself (hdecodes b hb)).2 (hpercent b hb), id]
  · exact iff_of_false (by simp) fun h => hall h.1

/-! ### The law -/

theorem isExact_sortRoutes {routes : List CompiledRoute} {path method : Text}
    {route : CompiledRoute} :
    IsExact (sortRoutes routes) path method route ↔ IsExact routes path method route := by
  have hmem : ∀ r, r ∈ sortRoutes routes ↔ r ∈ routes := fun _ => Ranking.mem_ranked
  constructor
  · exact fun h => ⟨(hmem _).1 h.mem, h.static, h.path_eq, h.serves, fun hnone r hr =>
      h.method_eq hnone r ((hmem r).2 hr)⟩
  · exact fun h => ⟨(hmem _).2 h.mem, h.static, h.path_eq, h.serves, fun hnone r hr =>
      h.method_eq hnone r ((hmem r).1 hr)⟩

theorem IsExact.answers_eq {routes : List CompiledRoute} {path method : Text}
    {route : CompiledRoute} (h : IsExact routes path method route) (hroot : route.path ≠ ['/']) :
    route.exec path = some [] ∧ route.paramNames = [] ∧ answers path method route ∧
      route.specificity = staticScore path := by
  obtain ⟨hexec, hnames, hbrackets⟩ := exec_static h.static hroot
  rw [h.path_eq] at hexec
  have hsome : (route.exec path).isSome := by rw [hexec]; rfl
  refine ⟨hexec, hnames, ?_, (specificity_of_exec hsome).2.2 hbrackets⟩
  rw [answers, h.serves, hsome]
  rfl

theorem matchRoute_static_iff {compiledRoutes routes : List CompiledRoute} {path method : Text}
    {route : CompiledRoute} (h : IsExact routes path method route) (hroot : route.path ≠ ['/']) :
    (∃ params, matchRoute compiledRoutes path method = .ok (some ⟨route, params⟩)) ↔
      compiledRoutes.find? (answers path method) = some route := by
  obtain ⟨hexec, hnames, -, -⟩ := h.answers_eq hroot
  rw [matchRoute_eq]
  cases hfound : compiledRoutes.find? (answers path method) with
  | none => simp
  | some found =>
    constructor
    · rintro ⟨params, hmatched⟩
      dsimp only at hmatched
      cases hextract : extractParams [] found.paramNames ((found.exec path).getD []) with
      | error thrown => rw [hextract] at hmatched; cases hmatched
      | ok values => rw [hextract] at hmatched; cases hmatched; rfl
    · rintro ⟨⟩
      exact ⟨[], by simp only [hexec, hnames]; rfl⟩

/-- A static route is the first by score if and only if only routes with brackets answer before
it. -/
theorem find?_static_iff {routes : List CompiledRoute} {path method : Text}
    {route : CompiledRoute} (h : IsExact routes path method route) (hroot : route.path ≠ ['/']) :
    (sortRoutes routes).find? (answers path method) = some route ↔
      ∃ pre post, routes = pre ++ route :: post ∧
        ∀ r ∈ pre, answers path method r → r.hasBrackets := by
  obtain ⟨-, -, hanswers, hscore⟩ := h.answers_eq hroot
  have hcompare : ∀ {r : CompiledRoute}, answers path method r →
      r.specificity ≤ route.specificity ∧
        (r.specificity < route.specificity ↔ r.hasBrackets) := by
    intro r hr
    obtain ⟨hle, heq⟩ := specificity_of_exec (Bool.and_eq_true_iff.1 hr).2
    rw [hscore]
    refine ⟨hle, ?_⟩
    rw [← Bool.not_eq_false, ← heq]
    omega
  rw [find?_sortRoutes]
  constructor
  · rintro ⟨pre, post, hroutes, -, hpre, -⟩
    exact ⟨pre, post, hroutes, fun r hr hans => (hcompare hans).2.1 (hpre r hr hans)⟩
  · rintro ⟨pre, post, hroutes, hpre⟩
    exact ⟨pre, post, hroutes, hanswers, fun r hr hans => (hcompare hans).2.2 (hpre r hr hans),
      fun r _ hans => (hcompare hans).1⟩

/-- **A request runs the function it should if and only if static routes come before the ones that
score the same, and no value of a parameter has a percent sign.** -/
theorem routed_iff {registry : Registry} {compiledRoutes : List CompiledRoute}
    (hrebuild : rebuildCompiledRoutes registry = .ok compiledRoutes) {encoded path : Text}
    (hdecode : Percent.decode encoded = some path) (method : Text) :
    Routed compiledRoutes encoded path method ↔ Distinct (registryRoutes registry) path method := by
  obtain rfl := rebuildCompiledRoutes_eq hrebuild
  have hstatic : ∀ {route}, IsExact (registryRoutes registry) path method route →
      ((∃ params, matchRoute (sortRoutes (registryRoutes registry)) path method =
        .ok (some ⟨route, params⟩)) ↔ ∃ pre post, registryRoutes registry = pre ++ route :: post ∧
          ∀ r ∈ pre, answers path method r → r.hasBrackets) := by
    intro route h
    have hroot := path_ne_root h.mem
    rw [matchRoute_static_iff h hroot, find?_static_iff h hroot]
  have hparams : ∀ {route captures},
      (sortRoutes (registryRoutes registry)).find? (answers path method) = some route →
      route.exec path = some captures →
      (matchRoute (sortRoutes (registryRoutes registry)) path method =
          .ok (some ⟨route, bindParams [] route.paramNames captures⟩) ↔
        (∀ b ∈ route.paramNames.zip captures, (Percent.decode b.2).isSome) ∧
          ∀ b ∈ bindParams [] route.paramNames captures, '%' ∉ b.2) := by
    intro route captures hfound hexec
    rw [matchRoute_eq, hfound, ← extractParams_eq_bindParams_iff]
    simp only [hexec, Option.getD_some]
    cases extractParams [] route.paramNames captures with
    | error thrown => simp [Except.map]
    | ok params => simp [Except.map]
  constructor
  · intro h
    refine ⟨fun route hexact => ?_, fun pre route post captures hroutes hans hexec hpre hpost => ?_⟩
    · exact (hstatic hexact).1 (h.exact route (isExact_sortRoutes.2 hexact))
    · have hfound := find?_sortRoutes.2 ⟨pre, post, hroutes, hans, hpre, hpost⟩
      exact (hparams hfound hexec).1 (h.params route captures hfound hexec)
  · intro h
    refine ⟨fun route hexact => ?_, inspected_eq _ hdecode method,
      fun route captures hfound hexec => ?_⟩
    · have hexact := isExact_sortRoutes.1 hexact
      exact (hstatic hexact).2 (h.exact route hexact)
    · obtain ⟨pre, post, hroutes, hans, hpre, hpost⟩ := find?_sortRoutes.1 hfound
      have hpieces := h.params pre route post captures hroutes hans hexec hpre hpost
      exact (hparams hfound hexec).2 hpieces

def get : Text := "GET".toList

def userRoute : CompiledRoute :=
  ⟨"users/[id]".toList, "users/[id]".toList, { trigger := .http (some get) none }, some get⟩

/-- The page of oneself, whose function reads the token. -/
def meRoute : CompiledRoute :=
  ⟨"users/me".toList, "users/me".toList,
    { trigger := .http (some get) none, customBearerAuth := true }, some get⟩

def userRegistry : Registry :=
  [("users/[id]::GET".toList, userRoute.definition), ("users/me::GET".toList, meRoute.definition)]

theorem userRegistry_accepted : rebuildCompiledRoutes userRegistry = .ok [meRoute, userRoute] := by
  rfl

/-- The page of oneself is selected, though it is registered last. -/
theorem routed_me :
    Routed [meRoute, userRoute] "users/me".toList "users/me".toList get := by
  have hlist : registryRoutes userRegistry = [userRoute, meRoute] := rfl
  refine (routed_iff userRegistry_accepted (by decide) get).2 ?_
  rw [hlist]
  constructor
  · intro route h
    rcases mem_cons.1 h.mem with rfl | hmem
    · exact absurd h.static (by decide)
    · obtain rfl := mem_singleton.1 hmem
      exact ⟨[userRoute], [], rfl, by decide⟩
  · intro pre route post captures hroutes hans hexec hpre hpost
    rcases pre with _ | ⟨first, _ | ⟨second, pre⟩⟩
    · obtain ⟨rfl, rfl⟩ := List.cons.inj hroutes
      exact absurd (hpost meRoute (by decide) (by decide)) (by decide)
    · obtain ⟨rfl, hrest⟩ := List.cons.inj hroutes
      obtain ⟨rfl, rfl⟩ := List.cons.inj hrest
      have hnone : meRoute.exec "users/me".toList = some [] := by decide
      rw [hnone] at hexec
      cases hexec
      exact ⟨by decide, by decide⟩
    · obtain ⟨-, hrest⟩ := List.cons.inj hroutes
      obtain ⟨-, hrest⟩ := List.cons.inj hrest
      exact absurd hrest (by simp)

/-- The page of the user `100%25` is asked for by `100%2525`, and the parameter reads `100%`. -/
theorem decoded_twice :
    ¬ Routed [meRoute, userRoute] "users/100%2525".toList "users/100%25".toList get := by
  intro h
  have hparams := h.params userRoute ["100%25".toList] (by decide) (by decide)
  exact absurd hparams (by decide)

/-- A `:param` that is registered first takes the request of a static route. -/
example :
    matchRoute (sortRoutes [{ userRoute with path := "users/:id".toList }, meRoute])
      "users/me".toList get =
    .ok (some ⟨{ userRoute with path := "users/:id".toList }, [("id".toList, "me".toList)]⟩) := by
  decide

end EdgeBase.Functions
