/-!
# Scoped imports

The platform reserves a scope of module names for values that only exist on its servers. Each
namespace of that scope has a kind of import of its own.
-/

namespace Downlevel

/-- The kinds of scoped imports. -/
inductive ScopedImport where
  | apex
  | apexContinuation
  | customPermission
  | i18n
  | label
  | contentAssetUrl
  | resourceUrl
  | schema
  | user
  | userPermission
  | client
  | messageChannel
  | accessCheck
  | site
  deriving DecidableEq, Inhabited, Repr

namespace ScopedImport

/-- Every kind, in the order in which they are tried. -/
def all : List ScopedImport :=
  [apex, apexContinuation, customPermission, i18n, label, contentAssetUrl, resourceUrl, schema,
    user, userPermission, client, messageChannel, accessCheck, site]

/-- The name of the pass that handles imports of a kind. -/
def passName : ScopedImport → String
  | apex => "apex-scoped-import"
  | apexContinuation => "apex-continuation-scoped-import"
  | customPermission => "custom-permission-scoped-import"
  | i18n => "i18n-scoped-import"
  | label => "label-scoped-import"
  | contentAssetUrl => "content-asset-url-scoped-import"
  | resourceUrl => "resource-scoped-import"
  | schema => "schema-scoped-import"
  | user => "user-scoped-import"
  | userPermission => "user-permission-scoped-import"
  | client => "client-scoped-import"
  | messageChannel => "message-channel-scoped-import"
  | accessCheck => "access-check-scoped-import"
  | site => "site-scoped-import"

/-- The last part of the namespace of a kind. -/
def segment : ScopedImport → String
  | apex => "apex"
  | apexContinuation => "apexContinuation"
  | customPermission => "customPermission"
  | i18n => "i18n"
  | label => "label"
  | contentAssetUrl => "contentAssetUrl"
  | resourceUrl => "resourceUrl"
  | schema => "schema"
  | user => "user"
  | userPermission => "userPermission"
  | client => "client"
  | messageChannel => "messageChannel"
  | accessCheck => "accessCheck"
  | site => "site"

/-- The module that a namespace is named after. -/
def root (k : ScopedImport) : String := "@salesforce/" ++ k.segment

/-- What the names of all modules of a kind start with. -/
def namespacePrefix (k : ScopedImport) : String := k.root ++ "/"

/-- The module of helpers for server methods. -/
def helperModule : String := apex.root

/-- What a module name says behind the namespace of a kind, if it lies in that namespace. -/
def resource? (k : ScopedImport) (specifier : String) : Option String :=
  let p := k.namespacePrefix.toList
  if p.isPrefixOf specifier.toList then some (String.ofList (specifier.toList.drop p.length))
  else none

/-- Whether imports of a kind have a given module name: it lies in the namespace of the kind, or is
the module of helpers. -/
def owns (k : ScopedImport) (specifier : String) : Bool :=
  (k == apex && specifier == helperModule) || (k.resource? specifier).isSome

/-- The first of some kinds that owns a module name. -/
def owner? (kinds : List ScopedImport) (specifier : String) : Option ScopedImport :=
  kinds.find? (·.owns specifier)

end ScopedImport

end Downlevel
