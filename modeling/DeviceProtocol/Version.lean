set_option autoImplicit false

namespace DeviceProtocol

def version : String := "0.1.0"

end DeviceProtocol
