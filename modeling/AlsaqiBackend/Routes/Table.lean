import AlsaqiBackend.Lib.Routing

/-!
# The routes of the API

`createV1Router` mounts the routers of `src/routes` one behind the other. A request goes through them in this
order: a router takes it when the path begins with that of the router, and sees the path without it; a
route of the router when the rest is one for its pattern, and the method is that of the route. A router without
such a route hands the request on. `authenticate` is a middleware of almost every route, and `dispatch` asks it
(`gate`) with the path as the router sees it.

Other middlewares (limiters, validators, permissions, idempotency) may answer a request in place of the
handler: `ends` says where.
-/

namespace AlsaqiBackend.Routes

open AlsaqiBackend.Lib

/-! ## Routers -/

inductive Method where
  | get
  | head
  | post
  | put
  | patch
  | delete
  | options
  | other
  deriving DecidableEq

/-- A layer of a router: `router.METHOD(path, …)` (`router.all` has no method), `router.use(authenticate)`, or
`router.use` with another middleware. -/
inductive Layer where
  | route (method : Option Method) (path : String) (authenticated : Bool)
  | authenticate
  | middleware
  deriving DecidableEq

def authenticated (method : Method) (path : String) : Layer := .route (some method) path true

def unauthenticated (method : Method) (path : String) : Layer := .route (some method) path false

/-- `router.all(path, methodNotAllowed([…]))`. -/
def methodNotAllowed (path : String) : Layer := .route none path false

/-- A router, and where it is mounted. -/
structure Mounted where
  path : String
  layers : List Layer
  deriving DecidableEq

/-! ## The table -/

def createHealthRouter : List Layer :=
  [unauthenticated .get "/health"]

def createLoginRoutes : List Layer :=
  [unauthenticated .post "/login"]

def createAuthSessionRoutes : List Layer :=
  [authenticated .get "/me", unauthenticated .post "/refresh", unauthenticated .post "/logout",
   authenticated .post "/logout-all", authenticated .get "/ws-token"]

def createPasswordRoutes : List Layer :=
  [unauthenticated .post "/forgot-password", unauthenticated .get "/reset-status/:username",
   authenticated .get "/reset-requests", authenticated .post "/approve-reset",
   authenticated .post "/reject-reset", authenticated .post "/change-password",
   authenticated .post "/update-password"]

def createTwoFactorRoutes : List Layer :=
  [authenticated .post "/2fa/setup", authenticated .post "/2fa/verify",
   unauthenticated .post "/2fa/validate", unauthenticated .post "/2fa/setup-pending",
   unauthenticated .post "/2fa/setup-complete", unauthenticated .post "/2fa/backup",
   authenticated .delete "/2fa"]

def createRegisterRoutes : List Layer :=
  [authenticated .post "/register"]

def createAuthRoutes : List Layer :=
  createLoginRoutes ++ createAuthSessionRoutes ++ createPasswordRoutes ++ createTwoFactorRoutes ++
    createRegisterRoutes

def createLookupRoutes : List Layer :=
  [authenticated .get "/risk-register/lookup", authenticated .get "/compliance-items/lookup",
   methodNotAllowed "/risk-register/lookup", methodNotAllowed "/compliance-items/lookup"]

/-- `generateRoutes` of `createCrudRoutes`. -/
def generateRoutes (routeName : String) : List Layer :=
  [authenticated .get ("/" ++ routeName), authenticated .get ("/" ++ routeName ++ "/:id"),
   authenticated .post ("/" ++ routeName), authenticated .put ("/" ++ routeName ++ "/:id"),
   authenticated .delete ("/" ++ routeName ++ "/:id")]

def createCrudRoutes : List Layer :=
  ["audit-plans", "audit-procedures", "audit-evidence", "risk-register", "fraud-log",
   "central-bank-instructions", "law-bank", "audit-reports"].flatMap generateRoutes

def createNotificationRoutes : List Layer :=
  [authenticated .get "/", authenticated .get "/unread-count", authenticated .put "/mark-read",
   authenticated .put "/mark-all-read", authenticated .put "/:id/read", authenticated .delete "/:id"]

def createCommentRoutes : List Layer :=
  [authenticated .get "/:type/:id", authenticated .post "/"]

def createJobTitleRoutes : List Layer :=
  [authenticated .get "/", authenticated .post "/", authenticated .put "/:id",
   authenticated .delete "/:id"]

def createUserRoutes : List Layer :=
  [authenticated .get "/init", authenticated .get "/", authenticated .get "/summary",
   authenticated .get "/list", authenticated .get "/:id", authenticated .post "/",
   authenticated .put "/:id", authenticated .post "/:id/suspend", authenticated .post "/:id/archive",
   authenticated .post "/:id/activate", authenticated .delete "/:id", authenticated .post "/:id/unlock",
   authenticated .post "/:id/reset-password"]

def createRoleRoutes : List Layer :=
  [authenticated .get "/roles", authenticated .get "/permissions"]

def createSessionRoutes : List Layer :=
  [authenticated .get "/", authenticated .delete "/:id"]

def createLogRoutes : List Layer :=
  [authenticated .get "/login-history", authenticated .get "/audit-trail",
   authenticated .post "/system-errors", authenticated .get "/system-errors",
   authenticated .delete "/system-errors", authenticated .get "/system-errors/export",
   authenticated .get "/system-errors/analytics", authenticated .post "/log-error"]

def createSettingsRoutes : List Layer :=
  [authenticated .get "/session-config", authenticated .get "/user-management-settings",
   authenticated .put "/user-management-settings"]

def createPdfTemplatesRoutes : List Layer :=
  [authenticated .get "/pdf-templates", authenticated .get "/pdf-templates/active",
   authenticated .post "/pdf-templates/preview-html", authenticated .post "/pdf-templates/preview-pdf",
   authenticated .get "/pdf-templates/:id", authenticated .post "/pdf-templates",
   authenticated .put "/pdf-templates/:id", authenticated .delete "/pdf-templates/:id"]

def createProfileRoutes : List Layer :=
  [authenticated .get "/profile", authenticated .put "/profile", authenticated .put "/preferences"]

def createDashboardRoutes : List Layer :=
  [authenticated .get "/dashboard-stats", authenticated .get "/my-tasks"]

def createCorrespondenceRoutes : List Layer :=
  [authenticated .get "/incoming", authenticated .post "/incoming", authenticated .put "/incoming/:id",
   authenticated .delete "/incoming/:id", authenticated .put "/status/:type/:id",
   authenticated .post "/refer", authenticated .post "/link", authenticated .put "/archive/:type/:id",
   authenticated .get "/archive", authenticated .get "/attachments/:type/:id",
   authenticated .post "/attachments", authenticated .get "/stats",
   authenticated .get "/details/:type/:id", authenticated .get "/outgoing",
   authenticated .post "/outgoing", authenticated .put "/outgoing/:id",
   authenticated .delete "/outgoing/:id"]

def createOrgEntitiesRoutes : List Layer :=
  [authenticated .get "/org-entities", authenticated .post "/org-entities",
   authenticated .put "/org-entities/:id", authenticated .delete "/org-entities/:id"]

def createCoiRoutes : List Layer :=
  [authenticated .get "/coi", authenticated .post "/coi", authenticated .put "/coi/:id"]

def createPoliciesRoutes : List Layer :=
  [authenticated .get "/policies", authenticated .get "/policies/:id",
   authenticated .get "/policies/:id/file", authenticated .post "/policies",
   authenticated .put "/policies/:id", authenticated .delete "/policies/:id"]

def createAppSettingsRoutes : List Layer :=
  [authenticated .get "/pdf-settings", authenticated .put "/pdf-settings",
   authenticated .get "/app-settings", authenticated .put "/app-settings"]

def createExecutiveReportsRoutes : List Layer :=
  [authenticated .get "/executive-summary"]

def createDepartmentRoutes : List Layer :=
  [authenticated .get "/", authenticated .get "/tree", authenticated .post "/",
   authenticated .put "/:id", authenticated .delete "/:id"]

def createAnalyticsRoutes : List Layer :=
  [authenticated .get "/findings-by-risk", authenticated .get "/findings-by-status",
   authenticated .get "/recommendations-by-status"]

def createIntegrityRoutes : List Layer :=
  [authenticated .get "/integrity/stats"]

def createAuditProgramRoutes : List Layer :=
  [authenticated .post "/:id/duplicate", authenticated .post "/:id/approve", authenticated .get "/",
   authenticated .get "/:id", authenticated .post "/", authenticated .put "/:id",
   authenticated .delete "/:id"]

def createAuditTaskRoutes : List Layer :=
  [authenticated .patch "/:id/status", authenticated .post "/:id/assign",
   authenticated .delete "/:id/assign/:userId", authenticated .get "/", authenticated .post "/",
   authenticated .put "/:id", authenticated .delete "/:id"]

def createAuditFindingRoutes : List Layer :=
  [authenticated .get "/by-plan/:planId", authenticated .get "/", authenticated .get "/:id",
   authenticated .post "/", authenticated .put "/:id", authenticated .patch "/:id/status",
   authenticated .delete "/:id", authenticated .post "/:findingId/evidence",
   authenticated .get "/:findingId/evidence"]

def createRecommendationRoutes : List Layer :=
  [authenticated .get "/", authenticated .post "/", authenticated .patch "/:id/resolve",
   methodNotAllowed "/", methodNotAllowed "/:id"]

def createArchiveRoutes : List Layer :=
  [authenticated .post "/audit-plans/:id/archive", authenticated .get "/audit-plans/can-create",
   authenticated .get "/archived-plans", authenticated .get "/archived-plans/:year",
   methodNotAllowed "/audit-plans/:id/archive", methodNotAllowed "/audit-plans/can-create",
   methodNotAllowed "/archived-plans", methodNotAllowed "/archived-plans/:year"]

def createFraudRoutes : List Layer :=
  [authenticated .post "/", authenticated .get "/", authenticated .get "/my-status",
   authenticated .put "/:id/approve", authenticated .put "/:id/reject"]

def createComplianceRoutes : List Layer :=
  [authenticated .get "/", authenticated .get "/summary", authenticated .get "/:id",
   authenticated .post "/", authenticated .put "/:id", authenticated .patch "/:id/status",
   authenticated .delete "/:id"]

def createBulkRoutes : List Layer :=
  [authenticated .post "/:resource"]

def createAdminBackupRoutes : List Layer :=
  [.authenticate, .middleware, unauthenticated .post "/backup", unauthenticated .get "/backup/history"]

def createPermissionAdminRoutes : List Layer :=
  [.middleware, authenticated .get "/roles", authenticated .post "/roles",
   authenticated .put "/roles/:id", authenticated .delete "/roles/:id",
   authenticated .get "/roles/:id/permissions", authenticated .post "/roles/:id/permissions",
   authenticated .get "/permissions/modules", authenticated .get "/permissions/me",
   authenticated .get "/users/:id/permissions", authenticated .put "/users/:id/permissions",
   authenticated .get "/audit-logs/permissions"]

def createReportsRoutes : List Layer :=
  [authenticated .post "/generate", authenticated .get "/:reportId/status"]

def createWebVitalsRoutes : List Layer :=
  [unauthenticated .post "/web-vitals"]

/-- `createV1Router`, with the middleware for idempotency and the route `/docs` of its own. -/
def createV1Router : List Mounted :=
  [⟨"/", [.middleware]⟩, ⟨"/", createHealthRouter⟩, ⟨"/", [unauthenticated .get "/docs"]⟩,
   ⟨"/auth", createAuthRoutes⟩, ⟨"/", createLookupRoutes⟩, ⟨"/", createCrudRoutes⟩,
   ⟨"/notifications", createNotificationRoutes⟩, ⟨"/comments", createCommentRoutes⟩,
   ⟨"/job-titles", createJobTitleRoutes⟩, ⟨"/users", createUserRoutes⟩, ⟨"/", createRoleRoutes⟩,
   ⟨"/user-sessions", createSessionRoutes⟩, ⟨"/", createLogRoutes⟩, ⟨"/", createSettingsRoutes⟩,
   ⟨"/", createPdfTemplatesRoutes⟩, ⟨"/", createProfileRoutes⟩, ⟨"/", createDashboardRoutes⟩,
   ⟨"/correspondence", createCorrespondenceRoutes⟩, ⟨"/", createOrgEntitiesRoutes⟩,
   ⟨"/", createCoiRoutes⟩, ⟨"/", createPoliciesRoutes⟩, ⟨"/", createAppSettingsRoutes⟩,
   ⟨"/", createExecutiveReportsRoutes⟩, ⟨"/departments", createDepartmentRoutes⟩,
   ⟨"/analytics", createAnalyticsRoutes⟩, ⟨"/", createIntegrityRoutes⟩,
   ⟨"/audit-programs", createAuditProgramRoutes⟩, ⟨"/audit-tasks", createAuditTaskRoutes⟩,
   ⟨"/audit-findings", createAuditFindingRoutes⟩, ⟨"/recommendations", createRecommendationRoutes⟩,
   ⟨"/", createArchiveRoutes⟩, ⟨"/fraud-access-requests", createFraudRoutes⟩,
   ⟨"/compliance", createComplianceRoutes⟩, ⟨"/bulk", createBulkRoutes⟩,
   ⟨"/admin", createAdminBackupRoutes⟩, ⟨"/", createPermissionAdminRoutes⟩,
   ⟨"/reports", createReportsRoutes⟩, ⟨"/metrics", createWebVitalsRoutes⟩]

/-! ## Requests -/

/-- A request, with the path behind `/api/v1`. -/
structure Request where
  method : Method
  path : List Char

/-- The handler that is run: its router, its path there, the path of the request as the router sees it, and
whether `authenticate` of this router stands before it. -/
structure Handled where
  router : Mounted
  route : String
  path : List Char
  behind : Bool
  deriving DecidableEq

inductive Outcome where
  | denied
  | ended
  | handled (h : Handled)
  | notFound
  deriving DecidableEq

/-- A route for GET answers HEAD as well. -/
def methodMatches : Option Method → Method → Bool
  | none, _ => true
  | some .get, method => method = .get ∨ method = .head
  | some expected, method => method = expected

/-- The layers of a router; `none` when the request goes on to the next router. -/
def dispatchLayers (matcher : PathMatcher) (gate : List Char → Bool) (ends : Mounted → Layer → Bool)
    (router : Mounted) (method : Method) (path : List Char) : Bool → List Layer → Option Outcome
  | _, [] => none
  | _, .authenticate :: layers =>
    if gate path then dispatchLayers matcher gate ends router method path true layers else some .denied
  | behind, .middleware :: layers =>
    if ends router .middleware then some .ended
    else dispatchLayers matcher gate ends router method path behind layers
  | behind, .route expected route auth :: layers =>
    match matcher.matchRoute (patternOf route) path with
    | .absent => dispatchLayers matcher gate ends router method path behind layers
    | .undecodable => some .ended
    | .found =>
      if methodMatches expected method then
        if auth && !gate path then some .denied
        else if ends router (.route expected route auth) then some .ended
        else some (.handled ⟨router, route, path, behind || auth⟩)
      else dispatchLayers matcher gate ends router method path behind layers

def dispatch (matcher : PathMatcher) (gate : List Char → Bool) (ends : Mounted → Layer → Bool)
    (request : Request) : List Mounted → Outcome
  | [] => .notFound
  | router :: routers =>
    match matcher.matchMount (patternOf router.path) request.path with
    | none => dispatch matcher gate ends request routers
    | some path =>
      match dispatchLayers matcher gate ends router request.method path false router.layers with
      | none => dispatch matcher gate ends request routers
      | some outcome => outcome

end AlsaqiBackend.Routes
