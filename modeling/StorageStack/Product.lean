/-! # Product identity

The name and the version under which the storage stack announces itself.
-/

namespace StorageStack.Product

def name : String := "inkboot"

def version : String := "0.2.0"

end StorageStack.Product
