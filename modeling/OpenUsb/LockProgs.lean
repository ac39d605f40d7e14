import OpenUsb.Lib.Locks

/-!
# LockProgs — what the library does to its mutexes

Every function of the library as far as it takes or releases a mutex, runs user code, or takes a request from its allocation
to the kernel, back, to the list of completed requests and to its end.  Messages without a library handle take no mutex and
are left out, as are the tests that choose a branch.
-/

namespace OpenUsb.Locking

open LockProg

/-! ## The system -/

/-- `usbi_lock`, the locks of the lists (`usbi_dev_handles`, `usbi_buses`, the devices of a bus, `usbi_devices`,
`usbi_handles`, `event_callbacks`), and the locks of an open device, a bus, a library handle (`lock` and `complete_lock`), a
request, a multi-request and a `simple_io`. -/
inductive LockClass where
  | usbiLock
  | devHandles
  | hdev
  | buses
  | multi
  | bus
  | busDevices
  | devices
  | handles
  | io
  | complete
  | simple
  | handle
  | events
  deriving DecidableEq

/-- The stations of a request, and the cases that are left out of the check. -/
inductive LockAct where
  | alloc
  | accept
  | fail
  | complete
  | enqueue
  | completed
  | take
  | free
  | freed
  | debugCallback
  | transferCallback
  | unconfigured
  | pollFound
  | unmarked
  deriving DecidableEq

/-- What a thread is doing with its request. -/
inductive IoRole where
  | idle
  | submitting
  | completing
  | freeing
  deriving DecidableEq

def IoRole.next : LockAct → IoRole → IoRole
  | .alloc, _ => .submitting
  | .accept, _ | .fail, _ => .idle
  | .complete, _ => .completing
  | .completed, _ => .idle
  | .free, _ => .freeing
  | .freed, _ => .idle
  | _, r => r

/-- Which requests were allocated, which the kernel has accepted, and which are on a list of completed requests. -/
structure IoBook where
  allocated : ℕ → Bool
  inKernel : ℕ → Bool
  listed : ℕ → Bool

def IoBook.effect (a : LockAct) (obj : LockClass → ℕ) (d : IoBook) : Option IoBook :=
  match a with
  | .alloc => if d.allocated (obj .io) = true then none else
      some { d with allocated := Function.update d.allocated (obj .io) true }
  | .accept => some { d with inKernel := Function.update d.inKernel (obj .io) true }
  | .complete => if d.inKernel (obj .io) = true then some d else none
  | .enqueue => some { d with listed := Function.update d.listed (obj .io) true }
  | .take => if d.listed (obj .io) = true then some { d with listed := Function.update d.listed (obj .io) false } else none
  | .free => if d.allocated (obj .io) = true then some d else none
  | _ => some d

abbrev Prog := LockProg LockClass LockAct

def locked (c : LockClass) (p : Prog) : Prog := block [lock c, p, unlock c]

/-! ## `usb.c`, first part -/

/-- `usbi_debug` with a library handle. -/
def usbiDebug : Prog :=
  block [lock .handle, anyOf [unlock .handle, block [risk .debugCallback user skip, unlock .handle]]]

def messages : Prog := loop usbiDebug

def usbiAddEventCallback : Prog :=
  block [usbiDebug, anyOf [usbiDebug, locked .events skip]]

def usbiFindHandle : Prog :=
  block [locked .usbiLock skip, optional (locked .handles (block [pick .handle, pick .complete]))]

/-- Goes over to the found device with its library handle and its bus. -/
def usbiFindDevHandle : Prog :=
  block [locked .usbiLock skip, optional (block [lock .devHandles, loop (block [pick .hdev, locked .hdev skip]),
    unlock .devHandles, pick .hdev, pick .handle, pick .complete, pick .bus])]

def usbiFindDeviceById : Prog :=
  block [locked .usbiLock skip, optional (locked .devices skip)]

/-! ## `io.c` and the submission and completion of requests in `linux.c` -/

def usbiGetXferTimeout : Prog := optional (locked .handle skip)

/-- Without memory there is no request. -/
def usbiAllocIo : Prog :=
  block [pick .io, act .alloc, locked .io skip, locked .hdev skip]

def wakeupIoThread : Prog := optional usbiDebug

def discardUrbs : Prog := messages

def handlePartialSubmit : Prog := block [messages, usbiDebug]

def linuxIoCancel : Prog := block [discardUrbs, wakeupIoThread]

def usbiFreeIo : Prog :=
  block [act .free, lock .io, locked .hdev skip, act .freed, optional (block [usbiDebug, linuxIoCancel]), unlock .io,
    loop (locked .io skip)]

def linuxSubmitCtrl : Prog :=
  block [lock .io, anyOf [
    block [optional usbiDebug, unlock .io, act .fail],
    block [lock .hdev, anyOf [
      block [usbiDebug, unlock .io, unlock .hdev, act .fail],
      block [act .accept, unlock .io, unlock .hdev, wakeupIoThread]]]]]

/-- The loop that hands the URBs to the kernel, in `linux_submit_bulk_intr` and in `linux_submit_isoc`; a transfer may have no
URBs at all. -/
def fireUrbs : Prog :=
  block [lock .hdev, anyOf [
    block [usbiDebug, unlock .io, unlock .hdev, act .fail],
    block [act .accept, handlePartialSubmit, unlock .io, unlock .hdev],
    block [anyOf [act .accept, act .fail], unlock .io, unlock .hdev, wakeupIoThread]]]

def linuxSubmitBulkIntr : Prog :=
  block [lock .io, anyOf [
    block [usbiDebug, unlock .io, act .fail],
    block [usbiDebug, anyOf [block [usbiDebug, unlock .io, act .fail], fireUrbs]]]]

def linuxSubmitIsoc : Prog :=
  block [lock .io, anyOf [
    block [usbiDebug, unlock .io, act .fail],
    block [usbiDebug, anyOf [block [optional usbiDebug, unlock .io, act .fail], fireUrbs]]]]

def usbiAsyncSubmit : Prog :=
  block [locked .io skip, anyOf [linuxSubmitCtrl, linuxSubmitBulkIntr, linuxSubmitIsoc, act .fail]]

def simpleIoWait : Prog := locked .simple (optional (wait .simple))

/-- With `async_callback`. -/
def simpleIoComplete : Prog := block [pick .simple, locked .simple skip]

def usbiIoSync : Prog :=
  block [usbiGetXferTimeout, optional (block [usbiAllocIo, anyOf [
    act .fail,
    block [pick .simple, usbiAsyncSubmit, anyOf [usbiFreeIo, block [simpleIoWait, usbiFreeIo]]]]])]

def usbiIoAsync : Prog :=
  block [locked .io skip, locked .bus skip, anyOf [act .fail, block [usbiAsyncSubmit, optional usbiDebug]]]

def usbiIoComplete : Prog :=
  block [act .complete, locked .io skip, optional (locked .complete (act .enqueue)), locked .io skip, locked .io skip,
    act .completed, risk .transferCallback user skip, optional simpleIoComplete]

def handleBulkIntrComplete : Prog :=
  block [usbiDebug, messages, optional usbiIoComplete]

def handleIsocComplete : Prog :=
  block [usbiDebug, messages, optional usbiIoComplete]

/-- One pass for every URB that the kernel gives back. -/
def ioComplete : Prog :=
  loop (block [pick .io, anyOf [usbiDebug, optional usbiIoComplete, handleBulkIntrComplete, handleIsocComplete]])

def ioTimeout : Prog := loop discardUrbs

/-- The last pass finds the device closing. -/
def pollIo : Prog :=
  block [
    loop (block [locked .hdev skip, anyOf [usbiDebug, locked .hdev (block [messages, ioComplete, ioTimeout])]]),
    locked .hdev skip, locked .hdev messages]

/-! ## Synchronous transfers on the default pipe -/

def usbiControlXfer : Prog := usbiIoSync

/-- `openusb_xfer_wait` with what `check_req_valid` does. -/
def xferWait (checkReqValid : Prog) : Prog :=
  block [usbiFindDevHandle, optional (anyOf [
    usbiDebug,
    block [checkReqValid, anyOf [usbiDebug, block [locked .hdev (locked .bus skip), optional usbiIoSync]]]])]

/-- `check_req_valid` has nothing to check for a control transfer on endpoint 0. -/
def ctrlXferDefault : Prog := xferWait skip

def usbiGetDescriptor : Prog := ctrlXferDefault

def usbiGetString : Prog := ctrlXferDefault

def usbiFetchAndParseDescriptors : Prog := loop usbiGetDescriptor

def usbiGetCfgIndexByValue : Prog := usbiFetchAndParseDescriptors

/-! ## The operations of a device in `linux.c` -/

def linuxClose : Prog :=
  optional (block [locked .hdev skip, optional (locked .hdev (optional usbiDebug))])

/-- Starts the poll thread, and takes no mutex. -/
def linuxOpen : Prog := skip

def linuxSetConfiguration : Prog := anyOf [usbiDebug, usbiGetCfgIndexByValue]

/-- Called with the lock of the device held. -/
def linuxGetConfiguration : Prog :=
  block [unlock .hdev, usbiControlXfer, optional usbiGetCfgIndexByValue, lock .hdev]

def linuxAttachKernelDriver : Prog := optional usbiDebug

def linuxDetachKernelDriver : Prog := optional usbiDebug

def linuxClaimInterface : Prog :=
  optional (block [usbiDebug, optional (block [usbiDebug, optional (block [linuxDetachKernelDriver,
    anyOf [usbiDebug, optional (block [usbiDebug, linuxAttachKernelDriver, optional usbiDebug])]])])])

def linuxReleaseInterface : Prog :=
  anyOf [usbiDebug, optional (block [linuxAttachKernelDriver, optional usbiDebug])]

def linuxSetAltsetting : Prog := optional usbiDebug

def linuxReset : Prog := optional usbiDebug

/-! ## Buses and devices, in `devices.c` and `linux.c` -/

def usbiAddBus : Prog := block [pick .bus, locked .bus skip]

def usbiFreeBus : Prog := block [pick .bus, locked .bus skip]

/-- `usbi_find_bus_by_id` and `usbi_find_bus_by_num`. -/
def usbiFindBus : Prog :=
  block [locked .buses (loop (block [pick .bus, locked .bus skip])), pick .bus]

def refreshBus : Prog :=
  locked .buses (block [loop (block [pick .bus, locked .bus skip, optional usbiFreeBus]), loop usbiAddBus])

def usbiRefreshBusses : Prog := loop (optional refreshBus)

/-- Every library handle gets the event. -/
def notifyHandles : Prog := locked .handles (loop (block [pick .handle, usbiAddEventCallback]))

def usbiAddDevice : Prog := block [locked .devices skip, notifyHandles]

def usbiRemoveDevice : Prog :=
  block [lock .buses, lock .devices, unlock .buses, unlock .devices, notifyHandles]

def processNewDevice (findBus : Prog) : Prog := block [findBus, optional usbiAddDevice]

def linuxRefreshDevices : Prog :=
  locked .bus (optional (block [loop (processNewDevice skip), loop (risk .unmarked usbiRemoveDevice skip)]))

def usbiRescanDevices : Prog :=
  block [usbiRefreshBusses,
    locked .buses (loop (block [pick .bus, unlock .buses, linuxRefreshDevices, lock .buses]))]

def findDeviceBySysfspath : Prog := locked .devices skip

def deviceAdded : Prog :=
  block [findDeviceBySysfspath, anyOf [notifyHandles, processNewDevice (optional usbiFindBus)]]

def deviceRemoved : Prog :=
  block [findDeviceBySysfspath, optional (block [pick .hdev, pick .handle, linuxClose, usbiRemoveDevice])]

def udevHotplugEventThread : Prog := loop (anyOf [skip, deviceAdded, deviceRemoved])

def linuxInit : Prog := messages

def linuxFini : Prog := optional usbiDebug

/-! ## `usb.c`, second part -/

/-- The event callback is user code. -/
def processEventCallbacks : Prog :=
  loop (block [lock .events, loop (wait .events),
    loop (block [unlock .events, pick .handle, usbiDebug, optional user, lock .events]), unlock .events])

def usbiInitHandle : Prog :=
  optional (block [locked .usbiLock skip, locked .handles skip, pick .handle, pick .complete])

def usbiDestroyHandle : Prog := locked .handles skip

def openusbInit : Prog :=
  optional (block [locked .usbiLock skip, optional (block [usbiInitHandle, anyOf [
    locked .usbiLock skip,
    block [loop linuxInit, anyOf [locked .usbiLock skip, block [usbiRescanDevices, usbiDebug]]]]])])

def openusbFini : Prog :=
  block [usbiFindHandle, optional (block [loop linuxFini, usbiDestroyHandle, locked .usbiLock skip])]

def openusbSetEventCallback : Prog :=
  block [usbiFindHandle, optional (block [locked .handle skip, locked .handle skip])]

def openusbSetDebug : Prog :=
  block [usbiFindHandle, optional (block [locked .handle skip, optional usbiDebug])]

def openusbSetDefaultTimeout : Prog := block [usbiFindHandle, optional (locked .handle skip)]

/-- `openusb_get_devid` and `openusb_get_lib_handle`. -/
def openusbGetDevid : Prog := block [usbiFindDevHandle, optional (locked .hdev skip)]

def openusbGetLibHandle : Prog := openusbGetDevid

def openusbGetConfiguration : Prog :=
  block [usbiFindDevHandle, optional (locked .hdev linuxGetConfiguration)]

def openusbCloseDevice : Prog :=
  block [usbiFindDevHandle, optional (block [
    locked .hdev (loop (block [pick .io, unlock .hdev, usbiFreeIo, lock .hdev])),
    linuxClose, locked .devHandles (locked .hdev skip)])]

def openusbOpenDevice : Prog :=
  block [usbiFindHandle, optional (block [usbiFindDeviceById, optional (block [locked .usbiLock skip,
    pick .hdev, pick .bus, linuxOpen, optional (block [locked .devHandles (locked .hdev skip), openusbGetConfiguration,
      optional openusbCloseDevice])])])]

def openusbAbort : Prog :=
  block [lock .devHandles,
    loop (block [pick .hdev, pick .handle, unlock .devHandles, locked .hdev skip, lock .devHandles]),
    anyOf [
      unlock .devHandles,
      block [pick .hdev, pick .handle, unlock .devHandles, locked .hdev (block [linuxIoCancel, optional usbiDebug])]]]

/-! ## Descriptors and lists, in `devices.c` -/

def openusbGetRawDesc : Prog := block [usbiFindHandle, optional usbiFindDeviceById]

/-- `openusb_parse_device_desc` and its siblings for configurations, interfaces and endpoints. -/
def openusbParseDesc : Prog :=
  block [usbiFindHandle, optional (block [optional usbiDebug, optional openusbGetRawDesc, optional usbiDebug])]

def openusbGetBusidList : Prog :=
  block [usbiFindHandle, optional (anyOf [
    block [locked .buses skip, usbiDebug],
    locked .buses (loop (block [pick .bus, locked .bus skip]))])]

def openusbGetDevidsByBus : Prog :=
  block [usbiFindHandle, anyOf [skip, locked .devices skip, block [usbiFindBus, optional (block [pick .busDevices,
    locked .busDevices skip])]]]

def openusbGetDevidsByVendor : Prog :=
  block [usbiFindHandle, optional (locked .devices
    (loop (block [unlock .devices, openusbParseDesc, optional usbiDebug, lock .devices])))]

def usbiMatchClass : Prog :=
  block [usbiFindHandle, openusbParseDesc, optional usbiDebug,
    optional (block [usbiDebug, loop (block [openusbGetRawDesc, optional usbiDebug, openusbParseDesc, optional usbiDebug,
      usbiDebug, loop (block [openusbParseDesc, optional usbiDebug])])])]

def openusbGetDevidsByClass : Prog :=
  block [usbiFindHandle, optional (locked .devices (loop (block [unlock .devices, usbiMatchClass, lock .devices])))]

def openusbGetMaxXferSize : Prog :=
  block [usbiFindHandle, optional (block [usbiFindBus, optional (anyOf [usbiDebug, locked .bus skip])])]

def openusbGetDeviceData : Prog :=
  block [usbiFindHandle, optional (block [usbiFindDeviceById, optional (block [pick .bus, locked .bus skip,
    openusbParseDesc, optional (block [
      optional (block [locked .devHandles skip, optional openusbOpenDevice, loop usbiGetString, optional openusbCloseDevice]),
      openusbGetRawDesc, openusbParseDesc, optional openusbCloseDevice])])])]

/-! ## `api.c` -/

def openusbColdplugCallbacksDone : Prog :=
  block [usbiFindHandle, optional (locked .handle (loop (wait .handle)))]

def openusbSetConfiguration : Prog :=
  block [usbiFindDevHandle, optional (block [openusbParseDesc, optional linuxSetConfiguration])]

def openusbClaimInterface : Prog :=
  block [usbiFindDevHandle, optional (block [usbiFetchAndParseDescriptors, optional (anyOf [
    locked .hdev usbiDebug,
    block [locked .hdev skip, linuxClaimInterface, locked .hdev skip]])])]

def openusbIsInterfaceClaimed : Prog := block [usbiFindDevHandle, optional (locked .hdev skip)]

def openusbReleaseInterface : Prog :=
  block [usbiFindDevHandle, optional (block [openusbIsInterfaceClaimed, optional (locked .hdev linuxReleaseInterface)])]

/-- Without a current configuration it returns with the lock of the device held. -/
def openusbSetAltsetting : Prog :=
  block [usbiFindDevHandle, optional (block [locked .hdev skip, usbiFetchAndParseDescriptors, optional (block [lock .hdev,
    risk .unconfigured usbiDebug (block [anyOf [usbiDebug, linuxSetAltsetting], unlock .hdev])])])]

def openusbGetAltsetting : Prog := block [usbiFindDevHandle, optional (locked .hdev skip)]

def openusbReset : Prog := block [usbiFindDevHandle, optional (locked .hdev linuxReset)]

def usbiGetConfigDesc : Prog := block [usbiControlXfer, optional usbiControlXfer]

def checkReqValid : Prog :=
  anyOf [
    skip,
    block [openusbIsInterfaceClaimed, optional usbiDebug],
    block [openusbGetConfiguration, optional usbiDebug, optional (block [openusbGetAltsetting, optional usbiDebug,
      optional (block [usbiGetConfigDesc, optional (block [openusbParseDesc, optional usbiDebug,
        loop (block [openusbParseDesc, optional usbiDebug]), optional usbiDebug])])])]]

def openusbXferWait : Prog := xferWait checkReqValid

def openusbXferAio : Prog :=
  block [usbiFindDevHandle, optional (anyOf [
    usbiDebug,
    block [checkReqValid, anyOf [
      usbiDebug,
      block [locked .hdev usbiGetXferTimeout, anyOf [
        usbiDebug,
        block [usbiAllocIo, usbiIoAsync, anyOf [
          skip,
          block [usbiDebug, locked .hdev skip, usbiFreeIo]]]]]]]])]

/-- Each pass but the last finds none of the requests on the list. -/
def openusbWait : Prog :=
  block [usbiFindDevHandle, optional (anyOf [
    usbiDebug,
    block [
      loop (locked .complete (block [usbiDebug, loop (wait .complete), messages, usbiDebug])),
      locked .complete (block [usbiDebug, loop (wait .complete), messages, pick .io, act .take, usbiDebug]),
      pick .hdev, usbiFreeIo]])]

/-- It frees the request that it finds before it releases `complete_lock`. -/
def openusbPoll : Prog :=
  block [usbiFindDevHandle, optional (block [locked .hdev skip, optional (locked .complete (block [messages,
    risk .pollFound (block [pick .io, act .take, usbiDebug, pick .hdev, usbiFreeIo]) usbiDebug]))])]

/-- The request is submitted without the lock of the multi-request; the callback of its requests takes no mutex. -/
def processMultiRequest : Prog :=
  block [usbiFindDevHandle, optional (block [pick .multi,
    loop (locked .multi (block [usbiDebug, loop (block [messages, unlock .multi, openusbXferAio, lock .multi]),
      loop (wait .multi)])),
    locked .multi (block [messages, loop (block [messages, unlock .multi, openusbXferAio, lock .multi]), messages,
      loop (wait .multi), loop (block [unlock .multi, openusbAbort, lock .multi])])])]

def openusbStart : Prog :=
  block [usbiFindDevHandle, optional (anyOf [usbiDebug, optional (block [checkReqValid, locked .hdev skip, usbiDebug])])]

def usbiAddOrStop : Prog :=
  block [usbiFindDevHandle, optional (block [locked .hdev skip, pick .multi, optional (locked .multi skip)])]

/-! ## The interface -/

/-- The functions of `openusb.h`; `lockless` stands for those that take no mutex, the strings, the parser of descriptors and
the functions that free a result. -/
inductive Api where
  | lockless
  | init
  | fini
  | setEventCallback
  | coldplugCallbacksDone
  | setDebug
  | setDefaultTimeout
  | getBusidList
  | getDevidsByBus
  | getDevidsByVendor
  | getDevidsByClass
  | getDeviceData
  | getRawDesc
  | parseDeviceDesc
  | parseConfigDesc
  | parseInterfaceDesc
  | parseEndpointDesc
  | getMaxXferSize
  | openDevice
  | closeDevice
  | getDevid
  | getLibHandle
  | getConfiguration
  | setConfiguration
  | claimInterface
  | releaseInterface
  | isInterfaceClaimed
  | getAltsetting
  | setAltsetting
  | reset
  | xferWait
  | xferAio
  | ctrlXfer
  | intrXfer
  | bulkXfer
  | isocXfer
  | abort
  | wait
  | poll
  | start
  | stop
  deriving DecidableEq

def Api.body : Api → Prog
  | .lockless => skip
  | .init => openusbInit
  | .fini => openusbFini
  | .setEventCallback => openusbSetEventCallback
  | .coldplugCallbacksDone => openusbColdplugCallbacksDone
  | .setDebug => openusbSetDebug
  | .setDefaultTimeout => openusbSetDefaultTimeout
  | .getBusidList => openusbGetBusidList
  | .getDevidsByBus => openusbGetDevidsByBus
  | .getDevidsByVendor => openusbGetDevidsByVendor
  | .getDevidsByClass => openusbGetDevidsByClass
  | .getDeviceData => openusbGetDeviceData
  | .getRawDesc => openusbGetRawDesc
  | .parseDeviceDesc | .parseConfigDesc | .parseInterfaceDesc | .parseEndpointDesc => openusbParseDesc
  | .getMaxXferSize => openusbGetMaxXferSize
  | .openDevice => openusbOpenDevice
  | .closeDevice => openusbCloseDevice
  | .getDevid => openusbGetDevid
  | .getLibHandle => openusbGetLibHandle
  | .getConfiguration => openusbGetConfiguration
  | .setConfiguration => openusbSetConfiguration
  | .claimInterface => openusbClaimInterface
  | .releaseInterface => openusbReleaseInterface
  | .isInterfaceClaimed => openusbIsInterfaceClaimed
  | .getAltsetting => openusbGetAltsetting
  | .setAltsetting => openusbSetAltsetting
  | .reset => openusbReset
  | .xferWait | .ctrlXfer | .intrXfer | .bulkXfer | .isocXfer => openusbXferWait
  | .xferAio => openusbXferAio
  | .abort => openusbAbort
  | .wait => openusbWait
  | .poll => openusbPoll
  | .start => openusbStart
  | .stop => usbiAddOrStop

/-- The library as user code sees it. -/
def openusb : LockSystem LockClass LockAct IoRole IoBook Api :=
  ⟨Api.body, IoRole.next, IoBook.effect⟩

/-- What a thread runs: the application, or one of the threads that the library starts. -/
inductive Root where
  | application
  | pollIo
  | eventCallbacks
  | hotplug
  | multiRequest
  deriving DecidableEq

def Root.body : Root → Prog
  | .application => user
  | .pollIo => Locking.pollIo
  | .eventCallbacks => processEventCallbacks
  | .hotplug => udevHotplugEventThread
  | .multiRequest => processMultiRequest

end OpenUsb.Locking
