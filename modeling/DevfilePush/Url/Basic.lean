import DevfilePush.Devfile.Basic

/-!
# Records of exposed URLs

URLs are recorded apart from the devfile, so they can outlive the endpoints they lead to.
-/

namespace DevfilePush

/-- The record of a URL: a container port that is reached through a port of the host. -/
structure UrlRecord where
  name : String
  /-- The container port. -/
  port : Port
  /-- The host port; zero while the URL is not exposed. -/
  exposedPort : Port
  /-- The alias of the only container the URL is for, if it is for one. -/
  container : Option String
  deriving DecidableEq, Repr, Inhabited

namespace UrlRecord

/-- Whether a URL is exposed and meant for a container. -/
def appliesTo (url : UrlRecord) (c : Component) : Bool :=
  url.exposedPort ≠ 0 && url.container.all (· = c.aliasName)

end UrlRecord

end DevfilePush
