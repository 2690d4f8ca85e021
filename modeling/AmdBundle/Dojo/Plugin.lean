import AmdBundle.Dojo.Adapter
import AmdBundle.Dojo.Interceptor
import AmdBundle.Dojo.Binder
import AmdBundle.Options

/-!
# AmdBundle.Dojo.Plugin — support for modules written for the Dojo loader

The three plugins together: the interceptor and the binder for the walk over a file, and the adapter
for the creation of modules.  `define` calls are left to the loader's runtime.
-/

namespace AmdBundle

structure DojoPlugin where
  options : PluginOptions
  loader : Loader

namespace DojoPlugin

/-- The absolute id of a request as the module `issuer` makes it. -/
def toAbsMid (plugin : DojoPlugin) (request : String) (issuer : Option String) : String :=
  AbsMid.resolve plugin.loader request issuer

def walkPlugins (plugin : DojoPlugin) : List Plugin :=
  [Dojo.interceptor plugin.options.loaderRequest, Dojo.binder plugin.options.requireIdent]

def factoryPlugin {σ : Type} (plugin : DojoPlugin) : FactoryPlugin σ :=
  Dojo.adapter plugin.loader plugin.options.noModuleRequest

/-- The table with the plugins added, and `define` calls left to the loader. -/
def applyToHooks (plugin : DojoPlugin) (table : HookTable) : HookTable :=
  { plugin.walkPlugins.foldl HookTable.add table with defineKind := .loader }

def applyToFactory {σ : Type} (plugin : DojoPlugin) (factory : Factory σ) : Factory σ :=
  factory.addPlugin plugin.factoryPlugin

end DojoPlugin
end AmdBundle
