import ControlPlane.Routes

/-!
# The settings of a tenant

The console edits a tenant's regional profile and its AREA entitlement, a flag of the tenant's own
service with a copy in the tenant's row.
-/

namespace ControlPlane

open ReadCommitted.Handler

structure ProfileUpdate where
  slug : String
  profile : RegionalProfile

def profileServer (cfg : Config) :
    ReadCommitted.Server Row Index ManagementRequest (Except ApiError Json) Upstream ProfileUpdate
      (Except ApiError TenantSummary) where
  schema := schema
  handler call := (Store.updateRegionalProfile cfg call.slug call.profile).run

structure SettingsRequest where
  slug : String
  body : Json

/-- `area_routes::settings`. The service is asked first; if the copy in the tenant's row cannot be
written, the service is taken back. -/
def areaSettings (cfg : Config) (slug : String) (body : Json) : Handler Json := do
  let enabled ← okOr ((body.get "enabled").bind Json.asBool)
    (.invalidInput "enabled boolean is required")
  let (tenant, url) ← Routes.target cfg slug
  let previous := tenant.tenant.areaEnabled
  let upstream ← request (.patchAreaSettings tenant.tenant.id url enabled)
  let _ ← require upstream
  match ← attempt (Store.setAreaEnabled slug enabled) with
  | .ok updated => pure (.obj [("enabled", .bool enabled), ("entitled", .bool updated)])
  | .error e => do
    -- a compensation that fails is only logged
    let _ ← request (.patchAreaSettings tenant.tenant.id url previous)
    throw e

def areaServer (cfg : Config) :
    ReadCommitted.Server Row Index ManagementRequest (Except ApiError Json) Upstream SettingsRequest
      (Except ApiError Json) where
  schema := schema
  handler call := (areaSettings cfg call.slug call.body).run

end ControlPlane
