import AlsaqiBackend.Routes.Table

/-!
# The gate for a required change of the password

A user who has to change the password should reach the handlers for this only. `passwordChangeGate` decodes
the path as the router sees it until nothing changes, resolves `.` and `..`, and looks for one of five words at
its beginning. Express runs the handler of the path as it has been sent.

A route of words alone has no other spelling, and the gate keeps it. Where a route has a parameter, the text of
it can lead the resolved path to one of the five words, and the router in which the word stands does not matter:
`gateHolds_iff` says that these are the requests that go through.
-/

namespace AlsaqiBackend.Routes

open AlsaqiBackend.Lib

/-! ## The gate -/

def PASSWORD_CHANGE_ALLOWED_PATHS : List (List Char) :=
  ["/change-password", "/update-password", "/logout", "/refresh", "/session"].map String.toList

/-- The rounds of `safeDecode`: until the text stays as it is or cannot be decoded. -/
def decodeRounds : ℕ → List Char → List Char
  | 0, current => current
  | rounds + 1, current =>
    match decodeURIComponent current with
    | none => current
    | some next => if next = current then current else decodeRounds rounds next

def safeDecode (rawPath : List Char) : List Char := decodeRounds 16 rawPath

def canonicalizePath (rawPath : List Char) : List Char :=
  let withForwardSlashes := (safeDecode rawPath).map fun c => if c = '\\' then '/' else c
  pathText ((components withForwardSlashes).foldl normalizeStep [])

def isPathAllowed (canonicalPath : List Char) (allowedPaths : List (List Char)) : Bool :=
  allowedPaths.any fun allowed => canonicalPath = allowed || (allowed ++ ['/']).isPrefixOf canonicalPath

/-- `passwordChangeGate`: whether it calls `next`. -/
def passwordChangeGate (requiresPasswordChange : Bool) (path : List Char) : Bool :=
  !requiresPasswordChange || isPathAllowed (canonicalizePath path) PASSWORD_CHANGE_ALLOWED_PATHS

/-! ## What it should keep -/

/-- A handler of the auth router that the user still has to reach. -/
def Handled.Resolves (h : Handled) : Prop :=
  h.router.path = "/auth" ∧
    h.route ∈ ["/change-password", "/update-password", "/logout", "/refresh", "/session"]

/-- For a user who has to change the password, no other handler is run behind `authenticate`. -/
def GateHolds (matcher : PathMatcher) (ends : Mounted → Layer → Bool) (request : Request) : Prop :=
  ∀ h, dispatch matcher (passwordChangeGate true) ends request createV1Router = .handled h →
    h.behind = true → h.Resolves

/-- The request is for a route with a parameter, and its path in the router is resolved to one that begins with
an allowed word. -/
def Disguised (matcher : PathMatcher) (ends : Mounted → Layer → Bool) (request : Request) : Prop :=
  ∃ h, dispatch matcher (fun _ => true) ends request createV1Router = .handled h ∧ h.behind = true ∧
    (patternOf h.route).any PatternSegment.isParam = true ∧
      isPathAllowed (canonicalizePath h.path) PASSWORD_CHANGE_ALLOWED_PATHS = true

variable {matcher : PathMatcher} {gate : List Char → Bool} {ends : Mounted → Layer → Bool} {request : Request}
  {router : Mounted} {method : Method} {path : List Char} {behind : Bool} {layers : List Layer} {h : Handled}

/-! ## Routes of words -/

/-- A path without percent signs and backslashes is resolved as it is. -/
theorem canonicalizePath_eq (hpercent : '%' ∉ path) (hback : '\\' ∉ path) :
    canonicalizePath path = pathText ((components path).foldl normalizeStep []) := by
  have hdecode : safeDecode path = path := by
    unfold safeDecode decodeRounds
    rw [decodeURIComponent_of_notMem hpercent]
    exact if_pos rfl
  have hslashes : (path.map fun c => if c = '\\' then '/' else c) = path := by
    refine (List.map_congr_left fun c hc => ?_).trans (List.map_id path)
    have hne : c ≠ '\\' := fun heq => hback (heq ▸ hc)
    exact if_neg hne
  unfold canonicalizePath
  rw [hdecode]
  dsimp only
  rw [hslashes]

/-- Names with slashes behind them are resolved to the names. -/
theorem canonicalizePath_names {names : List (List Char)} (hnames : ∀ s ∈ names, IsName s ∧ '%' ∉ s ∧ '\\' ∉ s)
    (n : ℕ) : canonicalizePath (names.flatMap ('/' :: ·) ++ List.replicate n '/') = pathText names := by
  have hnotMem : ∀ c, c ≠ '/' → (∀ s ∈ names, c ∉ s) →
      c ∉ names.flatMap ('/' :: ·) ++ List.replicate n '/' := by
    intro c hc hs hmem
    rcases List.mem_append.1 hmem with hmem | hmem
    · obtain ⟨s, hs', hcs⟩ := List.mem_flatMap.1 hmem
      exact (List.mem_cons.1 hcs).elim hc (hs s hs')
    · exact hc (List.eq_of_mem_replicate hmem)
  rw [canonicalizePath_eq (hnotMem _ (by decide) fun s hs => (hnames s hs).2.1)
    (hnotMem _ (by decide) fun s hs => (hnames s hs).2.2)]
  have hcomponents : components (names.flatMap ('/' :: ·) ++ List.replicate n '/') =
      [] :: (names ++ List.replicate n []) := by
    have hall : ∀ s ∈ names ++ List.replicate n [], '/' ∉ s := by
      intro s hs
      rcases List.mem_append.1 hs with hs | hs
      · exact (hnames s hs).1.2.2.2
      · rw [List.eq_of_mem_replicate hs]
        exact List.not_mem_nil
    rw [← components_flatMap hall, List.flatMap_append, flatMap_replicate_nil]
  have hempty : ∀ k, (List.replicate k ([] : List Char)).foldl normalizeStep names = names := by
    intro k
    induction k with
    | zero => rfl
    | succ k ih =>
      rw [List.replicate_succ, List.foldl_cons]
      exact ih
  have hfirst : normalizeStep [] [] = [] := rfl
  rw [hcomponents, List.foldl_cons, hfirst, List.foldl_append,
    foldl_normalizeStep (fun s hs => (hnames s hs).1), List.nil_append, hempty]

/-- What is allowed begins with an allowed word. -/
theorem firstSegment_of_isPathAllowed (h : isPathAllowed path PASSWORD_CHANGE_ALLOWED_PATHS = true) :
    '/' :: firstSegment path ∈ PASSWORD_CHANGE_ALLOWED_PATHS := by
  obtain ⟨allowed, hmem, heq⟩ := List.any_eq_true.1 h
  have hword : ∀ a ∈ PASSWORD_CHANGE_ALLOWED_PATHS, a = '/' :: a.tail ∧ '/' ∉ a.tail := by decide
  obtain ⟨hcons, hslash⟩ := hword allowed hmem
  rw [Bool.or_eq_true, decide_eq_true_eq, List.isPrefixOf_iff_prefix] at heq
  have hnil : ∀ c ∈ ([] : List Char).head?, c = '/' := by simp
  have hfirst : firstSegment path = allowed.tail := by
    rcases heq with rfl | ⟨tail, rfl⟩
    · have hself := firstSegment_cons hslash hnil
      rwa [List.append_nil, ← hcons] at hself
    · rw [hcons, List.cons_append, List.cons_append, List.append_assoc]
      exact firstSegment_cons hslash (by simp)
  rw [hfirst, ← hcons]
  exact hmem

/-- The gate lets a path for a route of words through only when the first of them is an allowed one. -/
theorem literal_of_isPathAllowed {pattern : List PatternSegment} (hspells : Spells pattern path)
    (hwords : ∀ p ∈ pattern, ∃ text, p = .literal text ∧ IsWord text)
    (h : isPathAllowed (canonicalizePath path) PASSWORD_CHANGE_ALLOWED_PATHS = true) :
    ∃ text rest, pattern = .literal text :: rest ∧ '/' :: text ∈ PASSWORD_CHANGE_ALLOWED_PATHS := by
  obtain ⟨names, n, rfl, hnames, rfl⟩ := hspells.literal hwords
  rw [canonicalizePath_names hnames] at h
  have hfirst := firstSegment_of_isPathAllowed h
  cases names with
  | nil => exact absurd hfirst (by decide)
  | cons s names =>
    have hslash : '/' ∉ s := (hnames s List.mem_cons_self).1.2.2.2
    have hpath : pathText (s :: names) = '/' :: (s ++ (names.flatMap ('/' :: ·) ++ [])) := by
      rw [List.append_nil]
      rfl
    rw [hpath, firstSegment_cons hslash (head?_flatMap (by simp))] at hfirst
    have hlower : ∀ a ∈ PASSWORD_CHANGE_ALLOWED_PATHS, lowered a = a := by decide
    have hs : lowered s = s := (List.cons.inj (hlower _ hfirst)).2
    exact ⟨lowered s, _, rfl, hs.symm ▸ hfirst⟩

/-! ## The table -/

/-- A segment of a pattern that is a word. -/
def isLiteralWord : PatternSegment → Bool
  | .literal text => decide (IsWord text)
  | .param _ => false

/-- A route has a parameter, or is of words and does not begin with an allowed one, or is a handler for the
change of the password. -/
def routeChecked (router : Mounted) (route : String) : Bool :=
  (patternOf route).any PatternSegment.isParam ||
    (patternOf route).all isLiteralWord &&
      match patternOf route with
      | .literal text :: _ =>
        '/' :: text ∉ PASSWORD_CHANGE_ALLOWED_PATHS ∨ router.path = "/auth" ∧
          route ∈ ["/change-password", "/update-password", "/logout", "/refresh", "/session"]
      | _ => true

def layerChecked (router : Mounted) : Layer → Bool
  | .route _ route _ => routeChecked router route
  | _ => true

theorem createV1Router_checked :
    (createV1Router.all fun router => router.layers.all (layerChecked router)) = true := by
  -- The routers are checked in four groups.
  rw [← List.take_append_drop 5 createV1Router, ← List.take_append_drop 8 (createV1Router.drop 5),
    ← List.take_append_drop 10 ((createV1Router.drop 5).drop 8)]
  simp only [List.all_append, Bool.and_eq_true]
  refine ⟨?_, ?_, ?_, ?_⟩
  · decide +kernel
  · decide +kernel
  · decide +kernel
  · decide +kernel

/-- What a checked route of the table says of a path that the gate lets through. -/
theorem isParam_or_resolves {route : String} (hchecked : routeChecked router route = true)
    (hspells : Spells (patternOf route) path)
    (h : isPathAllowed (canonicalizePath path) PASSWORD_CHANGE_ALLOWED_PATHS = true) :
    (patternOf route).any PatternSegment.isParam = true ∨ router.path = "/auth" ∧
      route ∈ ["/change-password", "/update-password", "/logout", "/refresh", "/session"] := by
  unfold routeChecked at hchecked
  rw [Bool.or_eq_true, Bool.and_eq_true] at hchecked
  refine hchecked.imp id fun hwords => ?_
  obtain ⟨hwords, hfirst⟩ := hwords
  have hliteral : ∀ p ∈ patternOf route, ∃ text, p = .literal text ∧ IsWord text := by
    intro p hp
    have hp := List.all_eq_true.1 hwords p hp
    cases p with
    | literal text => exact ⟨text, rfl, of_decide_eq_true hp⟩
    | param name => cases hp
  obtain ⟨text, rest, hpattern, hallowed⟩ := literal_of_isPathAllowed hspells hliteral h
  rw [hpattern] at hfirst
  exact (of_decide_eq_true hfirst).resolve_left fun hnot => hnot hallowed

/-! ## One router -/

/-- What a router that runs a handler says of it. -/
theorem dispatchLayers_handled
    (hrun : dispatchLayers matcher gate ends router method path behind layers = some (.handled h)) :
    h.router = router ∧ h.path = path ∧ (∃ m auth, .route m h.route auth ∈ layers) ∧
      Spells (patternOf h.route) path ∧ (h.behind = true → behind = true ∨ gate path = true) := by
  induction layers generalizing behind with
  | nil => cases hrun
  | cons layer layers ih =>
    have hlater : dispatchLayers matcher gate ends router method path behind layers = some (.handled h) →
        h.router = router ∧ h.path = path ∧ (∃ m auth, .route m h.route auth ∈ layer :: layers) ∧
          Spells (patternOf h.route) path ∧ (h.behind = true → behind = true ∨ gate path = true) := by
      intro hrest
      obtain ⟨hrouter, hpath, ⟨m, auth, hmem⟩, hspells, hbehind⟩ := ih hrest
      exact ⟨hrouter, hpath, ⟨m, auth, List.mem_cons_of_mem _ hmem⟩, hspells, hbehind⟩
    cases layer with
    | authenticate =>
      rw [dispatchLayers] at hrun
      split_ifs at hrun with hgate
      · obtain ⟨hrouter, hpath, ⟨m, auth, hmem⟩, hspells, -⟩ := ih hrun
        exact ⟨hrouter, hpath, ⟨m, auth, List.mem_cons_of_mem _ hmem⟩, hspells, fun _ => .inr hgate⟩
      · cases hrun
    | middleware =>
      rw [dispatchLayers] at hrun
      split_ifs at hrun
      · cases hrun
      · exact hlater hrun
    | route expected route auth =>
      rw [dispatchLayers] at hrun
      split at hrun
      next => exact hlater hrun
      next => cases hrun
      next hfound =>
        split_ifs at hrun with hmethod hdenied hends
        · cases hrun
        · cases hrun
        · obtain rfl := Outcome.handled.inj (Option.some.inj hrun)
          refine ⟨rfl, rfl, ⟨expected, auth, List.mem_cons_self⟩, matcher.spells_of_matchRoute hfound, ?_⟩
          intro hbehind
          rw [Bool.or_eq_true] at hbehind
          refine hbehind.imp id fun hauth => ?_
          rw [hauth, Bool.true_and, Bool.not_eq_true'] at hdenied
          exact of_not_not fun hclosed => hdenied (Bool.eq_false_iff.2 hclosed)
        · exact hlater hrun

/-- A router asks the gate about one path only. -/
theorem dispatchLayers_congr (gate gate' : List Char → Bool) (hgate : gate path = gate' path) :
    dispatchLayers matcher gate ends router method path behind layers =
      dispatchLayers matcher gate' ends router method path behind layers := by
  induction layers generalizing behind with
  | nil => rfl
  | cons layer layers ih => cases layer <;> simp only [dispatchLayers, hgate, ih]

/-- A router that hands a request on does so without the gate as well. -/
theorem dispatchLayers_open_eq_none
    (hrun : dispatchLayers matcher gate ends router method path behind layers = none) :
    dispatchLayers matcher (fun _ => true) ends router method path behind layers = none := by
  induction layers generalizing behind with
  | nil => rfl
  | cons layer layers ih =>
    cases layer with
    | authenticate =>
      rw [dispatchLayers] at hrun ⊢
      split_ifs at hrun
      rw [if_pos rfl]
      exact ih hrun
    | middleware =>
      rw [dispatchLayers] at hrun ⊢
      split_ifs at hrun with hends
      rw [if_neg hends]
      exact ih hrun
    | route expected route auth =>
      rw [dispatchLayers] at hrun ⊢
      split at hrun
      next => exact ih hrun
      next => cases hrun
      next =>
        split_ifs at hrun with hmethod
        rw [if_neg hmethod]
        exact ih hrun

/-- With the gate it hands the request on too, unless `authenticate` stands before all its routes. -/
theorem dispatchLayers_eq_none (gate : List Char → Bool)
    (hrun : dispatchLayers matcher (fun _ => true) ends router method path behind layers = none) :
    dispatchLayers matcher gate ends router method path behind layers = none ∨ .authenticate ∈ layers := by
  induction layers generalizing behind with
  | nil => exact .inl rfl
  | cons layer layers ih =>
    cases layer with
    | authenticate => exact .inr List.mem_cons_self
    | middleware =>
      rw [dispatchLayers] at hrun ⊢
      split_ifs at hrun ⊢
      exact (ih hrun).imp_right (List.mem_cons_of_mem _)
    | route expected route auth =>
      rw [dispatchLayers] at hrun ⊢
      split at hrun
      next => exact (ih hrun).imp_right (List.mem_cons_of_mem _)
      next => cases hrun
      next =>
        split_ifs at hrun with hmethod
        rw [if_neg hmethod]
        exact (ih hrun).imp_right (List.mem_cons_of_mem _)

/-! ## All routers -/

variable {routers : List Mounted}

/-- The router that runs the handler. -/
theorem exists_of_dispatch (hrun : dispatch matcher gate ends request routers = .handled h) :
    ∃ router ∈ routers, ∃ path, matcher.matchMount (patternOf router.path) request.path = some path ∧
      dispatchLayers matcher gate ends router request.method path false router.layers = some (.handled h) := by
  induction routers with
  | nil => cases hrun
  | cons router routers ih =>
    have hlater : dispatch matcher gate ends request routers = .handled h → ∃ r ∈ router :: routers, ∃ path,
        matcher.matchMount (patternOf r.path) request.path = some path ∧
          dispatchLayers matcher gate ends r request.method path false r.layers = some (.handled h) := by
      intro hrest
      obtain ⟨r, hr, hfound⟩ := ih hrest
      exact ⟨r, List.mem_cons_of_mem _ hr, hfound⟩
    rw [dispatch] at hrun
    split at hrun
    next => exact hlater hrun
    next path hmount =>
      split at hrun
      next => exact hlater hrun
      next outcome hlayers =>
        subst hrun
        exact ⟨router, List.mem_cons_self, path, hmount, hlayers⟩

/-- The gate has let a handler behind `authenticate` through, and without the gate it is run too. -/
theorem gate_of_dispatch (hrun : dispatch matcher gate ends request routers = .handled h)
    (hbehind : h.behind = true) :
    gate h.path = true ∧ dispatch matcher (fun _ => true) ends request routers = .handled h := by
  induction routers with
  | nil => cases hrun
  | cons router routers ih =>
    rw [dispatch] at hrun ⊢
    split at hrun
    next => exact ih hrun
    next path hmount =>
      split at hrun
      next hlayers =>
        rw [dispatchLayers_open_eq_none hlayers]
        exact ih hrun
      next outcome hlayers =>
        subst hrun
        obtain ⟨-, hpath, -, -, hgate⟩ := dispatchLayers_handled hlayers
        have hopen : gate path = true := (hgate hbehind).resolve_left Bool.false_ne_true
        rw [← dispatchLayers_congr gate (fun _ => true) hopen, hlayers, hpath]
        exact ⟨hopen, rfl⟩

/-- The routes of a router that is mounted at the root all begin with other literals than this. -/
def rootApart (text : List Char) (router : Mounted) : Bool :=
  router.layers.all fun
    | .route _ route _ =>
      match patternOf route with
      | .literal other :: _ => lowered other ≠ lowered text
      | _ => false
    | _ => true

/-- No path that begins with the literal is one for the router. -/
def apart (text : List Char) (router : Mounted) : Bool :=
  match patternOf router.path with
  | [] => rootApart text router
  | .literal other :: _ => lowered other ≠ lowered text
  | _ => false

/-- Behind a router with `authenticate` before all its routes there is none for the same paths. -/
def separated : List Mounted → Bool
  | [] => true
  | router :: routers =>
    (.authenticate ∉ router.layers ∨
      (match patternOf router.path with
        | .literal text :: _ => routers.all (apart text)
        | _ => false) = true) && separated routers

theorem createV1Router_separated : separated createV1Router = true := by decide +kernel

/-- Such a router runs no handler. -/
theorem not_handled_of_apart {text : List Char} (hapart : routers.all (apart text) = true)
    (hfirst : lowered (firstSegment request.path) = lowered text) :
    dispatch matcher gate ends request routers ≠ .handled h := by
  intro hrun
  obtain ⟨router, hrouter, path, hmount, hlayers⟩ := exists_of_dispatch hrun
  have hleaves := matcher.leaves_of_matchMount hmount
  have hrouter := List.all_eq_true.1 hapart router hrouter
  unfold apart at hrouter
  split at hrouter
  next hroot =>
    obtain ⟨-, -, ⟨m, auth, hmem⟩, hspells, -⟩ := dispatchLayers_handled hlayers
    rw [hroot, Leaves, if_pos rfl] at hleaves
    have hroute := List.all_eq_true.1 hrouter _ hmem
    dsimp only at hroute
    split at hroute
    next other pattern hpattern =>
      rw [hpattern, hleaves] at hspells
      exact of_decide_eq_true hroute (hspells.firstSegment.symm.trans hfirst)
    next => cases hroute
  next other pattern hpattern =>
    rw [hpattern] at hleaves
    exact of_decide_eq_true hrouter (hleaves.firstSegment.symm.trans hfirst)
  next => cases hrouter

/-- A handler that would be run without the gate is run when the gate lets its path through. -/
theorem dispatch_of_gate (gate : List Char → Bool) (hseparated : separated routers = true)
    (hopen : dispatch matcher (fun _ => true) ends request routers = .handled h) (hgate : gate h.path = true) :
    dispatch matcher gate ends request routers = .handled h := by
  induction routers with
  | nil => cases hopen
  | cons router routers ih =>
    rw [separated, Bool.and_eq_true, decide_eq_true_eq] at hseparated
    obtain ⟨hrouter, hrest⟩ := hseparated
    rw [dispatch] at hopen ⊢
    split at hopen
    next hmount => exact ih hrest hopen
    next path hmount =>
      split at hopen
      next hlayers =>
        rcases dispatchLayers_eq_none gate hlayers with hnone | hauthenticate
        · rw [hnone]
          exact ih hrest hopen
        · have hleaves := matcher.leaves_of_matchMount hmount
          have hlater := hrouter.resolve_left (not_not_intro hauthenticate)
          split at hlater
          next text pattern hpattern =>
            rw [hpattern] at hleaves
            exact absurd hopen (not_handled_of_apart hlater hleaves.firstSegment)
          next => cases hlater
      next outcome hlayers =>
        subst hopen
        obtain ⟨-, hpath, -, -, -⟩ := dispatchLayers_handled hlayers
        rw [hpath] at hgate
        rw [dispatchLayers_congr gate (fun _ => true) hgate, hlayers]

/-- The gate keeps a request from all handlers but those for the change of the password exactly when it is not
for a route with a parameter behind which an allowed word appears. -/
theorem gateHolds_iff (matcher : PathMatcher) (ends : Mounted → Layer → Bool) (request : Request) :
    GateHolds matcher ends request ↔ ¬Disguised matcher ends request := by
  constructor
  · rintro hholds ⟨h, hopen, hbehind, hparam, hallowed⟩
    have hrun := dispatch_of_gate (passwordChangeGate true) createV1Router_separated hopen hallowed
    obtain ⟨-, hroute⟩ := hholds h hrun hbehind
    have hwords : ∀ route ∈ ["/change-password", "/update-password", "/logout", "/refresh", "/session"],
        (patternOf route).any PatternSegment.isParam = false := by decide
    rw [hwords _ hroute] at hparam
    cases hparam
  · intro hplain h hrun hbehind
    obtain ⟨hgate, hopen⟩ := gate_of_dispatch hrun hbehind
    obtain ⟨router, hrouter, path, -, hlayers⟩ := exists_of_dispatch hrun
    obtain ⟨rfl, rfl, ⟨m, auth, hmem⟩, hspells, -⟩ := dispatchLayers_handled hlayers
    have hchecked : routeChecked h.router h.route = true :=
      List.all_eq_true.1 (List.all_eq_true.1 createV1Router_checked _ hrouter) _ hmem
    refine (isParam_or_resolves hchecked hspells hgate).resolve_left fun hparam => ?_
    exact hplain ⟨h, hopen, hbehind, hparam, hgate⟩

/-- `PUT /notifications/session/read`. -/
def markSessionRead : Request := ⟨.put, "/notifications/session/read".toList⟩

/-- The handler that marks a notification as read is run for a user who has to change the password. -/
theorem markSessionRead_not_gateHolds : ¬GateHolds expressMatcher (fun _ _ => false) markSessionRead := by
  intro hholds
  have hrun : dispatch expressMatcher (passwordChangeGate true) (fun _ _ => false) markSessionRead createV1Router =
      .handled ⟨⟨"/notifications", createNotificationRoutes⟩, "/:id/read", "/session/read".toList, true⟩ := by
    decide +kernel
  exact absurd (hholds _ hrun rfl).1 (by decide)

end AlsaqiBackend.Routes
